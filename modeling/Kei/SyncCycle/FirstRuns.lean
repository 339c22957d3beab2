import Kei.SyncCycle.Lineage
import Kei.SyncCycle.Skipped

/-!
# Kei.SyncCycle.FirstRuns

Where the first run of a zone in a cycle takes its token from, for a zone whose
active token was cleared before the cycle.

Such a zone is enumerated in full unless the cycle goes on with a
reconciliation that already has a candidate for it.  The invariant of the loop
is that the zone either was run from that source, or waits with the rows the
loop started from.
-/

namespace Kei.SyncCycle

open Str
open Store
open Prog

variable {env : Env} {inp : CycleInput} {facts : CycleFacts} {lib : LibraryState}
  {position : Nat} {zone : String} {staged : Option String} {S : TokenSource}
  {I J : Rows → List Event → Prop}

/-! ## the history -/

/-- Where a run of the zone takes its token from. -/
def Event.sourceOf (zone : String) : Event → Option TokenSource
  | .download _ z _ source _ _ => if z = zone then some source else none
  | _ => none

/-- Where the zone's first run takes its token from, when it was run. -/
def firstSource (zone : String) (l : List Event) : Option TokenSource :=
  l.findSome? (Event.sourceOf zone)

theorem firstSource_append (l : List Event) (e : Event) :
    firstSource zone (l ++ [e]) = (firstSource zone l).or (e.sourceOf zone) := by
  simp only [firstSource, List.findSome?_append, List.findSome?_cons, List.findSome?_nil]
  cases e.sourceOf zone <;> rfl

variable {l : List Event}

theorem firstSource_mono (h : firstSource zone l = some S) (e : Event) :
    firstSource zone (l ++ [e]) = some S := by
  rw [firstSource_append, h, Option.some_or]

theorem firstSource_other {e : Event} (h : e.sourceOf zone = none) :
    firstSource zone (l ++ [e]) = firstSource zone l := by
  rw [firstSource_append, h, Option.or_none]

/-- The zone was run from `S`. -/
def Ran (zone : String) (S : TokenSource) (_ : Rows) (l : List Event) : Prop :=
  firstSource zone l = some S

/-- The zone still waits, without an active token. -/
def Waiting (inp : CycleInput) (zone : String) (staged : Option String)
    (r : Rows) (l : List Event) : Prop :=
  firstSource zone l = none ∧ r (syncTokenKey zone) = none ∧
    r (pendingZoneTokenKey inp.config.enumConfigHash zone) = staged

/-- The zone was run from `S`, or it still waits. -/
def Waits (inp : CycleInput) (zone : String) (staged : Option String) (S : TokenSource)
    (r : Rows) (l : List Event) : Prop :=
  Ran zone S r l ∨ Waiting inp zone staged r l

theorem waits_source {r : Rows} {s : TokenSource} (h : Waits inp zone staged S r l)
    (hs : firstSource zone l = some s) : s = S := by
  rcases h with h | h
  · exact Option.some.inj (hs.symm.trans h)
  · rw [h.1] at hs
    contradiction

theorem waiting_ignores {key : String} (hactive : syncTokenKey zone ≠ key)
    (hstaged : pendingZoneTokenKey inp.config.enumConfigHash zone ≠ key) :
    Ignores (Waiting inp zone staged) key := by
  rintro r r' l hr ⟨h, ha, hp⟩
  exact ⟨h, by rw [← hr _ hactive, ha], by rw [← hr _ hstaged, hp]⟩

theorem waiting_ignoresNotes : IgnoresNotes (Waiting inp zone staged) := fun _ hk =>
  waiting_ignores (ne_note hk zone "").1 (ne_note hk zone _).2

theorem waits_ignores {key : String} (hactive : syncTokenKey zone ≠ key)
    (hstaged : pendingZoneTokenKey inp.config.enumConfigHash zone ≠ key) :
    Ignores (Waits inp zone staged S) key := by
  rintro r r' l hr (h | h)
  · exact .inl h
  · exact .inr (waiting_ignores hactive hstaged r r' l hr h)

theorem waits_ignoresNotes : IgnoresNotes (Waits inp zone staged S) := fun _ hk =>
  waits_ignores (ne_note hk zone "").1 (ne_note hk zone _).2

/-- An event of another zone, or of no zone, leaves the zone waiting. -/
theorem waits_other {r : Rows} {e : Event} (he : e.sourceOf zone = none)
    (h : Waits inp zone staged S r l) : Waits inp zone staged S r (l ++ [e]) := by
  unfold Waits Ran Waiting
  rw [firstSource_other he]
  exact h

theorem ran_log (r : Rows) (l : List Event) (e : Event) (h : Ran zone S r l) :
    Ran zone S r (l ++ [e]) := firstSource_mono h e

theorem ran_ignores (key : String) : Ignores (Ran zone S) key := fun _ _ _ _ h => h

theorem ran_ignoresNotes : IgnoresNotes (Ran zone S) := fun key _ => ran_ignores key

variable {st : LoopState} {decision : SourceCheckpointDecision}

theorem storeCheckpoint_ran :
    Keeps (On (Ran zone S)) (storeCheckpoint inp env facts position lib decision st) :=
  storeCheckpoint_keeps (ran_ignores _) (ran_ignores _) (ran_ignores _) (ran_ignores _)
    (fun r l _ _ => ran_log r l _)

/-! ## one library -/

/-- The source of the zone's first run, after the checks. -/
def CycleFacts.sourceFor (facts : CycleFacts) (inp : CycleInput) (staged : Option String) :
    TokenSource :=
  if inp.config.refreshMetadata = false ∧ facts.enumConfigHashOutcome = .changed ∧
      inp.hasStateDb = true ∧ (nonBlank staged).isSome then
    .candidate
  else
    .full

theorem readPendingZoneToken_waiting (hlib : lib.zoneName = zone) :
    Triple (On (Waiting inp zone staged)) (readPendingZoneToken inp env facts lib)
      (fun v => On (fun r l => Waiting inp zone staged r l ∧
        v = if facts.enumConfigHashOutcome = .changed ∧ inp.hasStateDb = true then
          nonBlank staged else none))
      (On (Waiting inp zone staged)) := by
  subst hlib
  refine Triple.ite (fun hc => Triple.ite (fun hdb => ?_) (fun hdb => ?_)) (fun hc => ?_)
  · refine Triple.bind getMetadataOrFail_triple (fun v => Triple.pure (fun w hw => ⟨hw.1, ?_⟩))
    rw [if_pos ⟨hc, hdb⟩, hw.2, hw.1.2.2]
  · exact Triple.pure (fun w hw => ⟨hw, (if_neg fun h => hdb h.2).symm⟩)
  · exact Triple.pure (fun w hw => ⟨hw, (if_neg fun h => hc h.1).symm⟩)

variable {pending : Option String}

theorem chooseSyncMode_waiting (hlib : lib.zoneName = zone)
    (hpending : pending = if facts.enumConfigHashOutcome = .changed ∧ inp.hasStateDb = true then
      nonBlank staged else none) :
    Triple (On (Waiting inp zone staged)) (chooseSyncMode inp env facts lib pending)
      (fun decision => On (fun r l => Waiting inp zone staged r l ∧
        decision.source = facts.sourceFor inp staged))
      (On (Waiting inp zone staged)) := by
  subst hlib
  unfold chooseSyncMode CycleFacts.sourceFor
  refine Triple.ite (fun hrefresh => Triple.pure (fun w hw => ⟨hw, ?_⟩)) (fun hrefresh => ?_)
  · rw [if_neg fun h => Bool.false_ne_true (h.1.symm.trans hrefresh)]
    rfl
  rw [Bool.not_eq_true] at hrefresh
  cases hp : pending with
  | some token =>
      rw [hp] at hpending
      have hc : facts.enumConfigHashOutcome = .changed ∧ inp.hasStateDb = true := by
        by_contra hc
        rw [if_neg hc] at hpending
        contradiction
      rw [if_pos hc] at hpending
      refine Triple.pure (fun w hw => ⟨hw, ?_⟩)
      rw [if_pos ⟨hrefresh, hc.1, hc.2, by rw [← hpending]; rfl⟩]
  | none =>
      rw [hp] at hpending
      have hno : ¬(inp.config.refreshMetadata = false ∧ facts.enumConfigHashOutcome = .changed ∧
          inp.hasStateDb = true ∧ (nonBlank staged).isSome) := by
        rintro ⟨-, hc, hdb, hs⟩
        rw [if_pos ⟨hc, hdb⟩] at hpending
        rw [← hpending] at hs
        contradiction
      rw [if_neg hno]
      refine Triple.ite (fun _ => Triple.pure (fun w hw => ⟨hw, rfl⟩)) (fun _ => ?_)
      refine Triple.ite (fun _ => Triple.pure (fun w hw => ⟨hw, rfl⟩)) (fun _ => ?_)
      refine Triple.ite (fun _ => ?_) (fun _ => Triple.pure (fun w hw => ⟨hw, rfl⟩))
      refine Triple.bind getMetadata_triple (fun v => ?_)
      -- the active token of a waiting zone is gone
      rcases v with _ | _ | token
      · exact Triple.pure (fun w hw => ⟨hw.1, rfl⟩)
      · exact Triple.pure (fun w hw => ⟨hw.1, rfl⟩)
      · refine Triple.pre (p := False) (fun w hw => ?_) (fun h => h.elim)
        exact absurd ((hw.2 _ rfl).trans hw.1.2.1) (Option.some_ne_none token)

theorem runLibrary_waiting (hlib : lib.zoneName = zone) (hS : facts.sourceFor inp staged = S) :
    Triple (On (Waiting inp zone staged)) (runLibrary inp env facts position lib st)
      (fun _ => On (Ran zone S)) (On (Waits inp zone staged S)) := by
  have hwaiting {w : World} (h : On (Waiting inp zone staged) w) :
      On (Waits inp zone staged S) w := .inr h
  refine Triple.bind ((readPendingZoneToken_waiting hlib).weaken_halt (fun _ h => hwaiting h))
    (fun pending => ?_)
  refine Triple.pre (fun w hw => hw.2) (fun hpending => ?_)
  refine Triple.bind ((chooseSyncMode_waiting hlib hpending).conseq (fun w hw => hw.1)
    (fun _ _ h => h) (fun _ h => hwaiting h)) (fun decision => ?_)
  refine Triple.pre (fun w hw => hw.2) (fun hsource => ?_)
  refine Triple.bind ((persistFullEnumerationReason_keeps waiting_ignoresNotes.reason).conseq
    (fun w hw => hw.1) (fun _ _ h => h) (fun _ h => hwaiting h)) (fun _ => ?_)
  refine Triple.bind (reconcilePaths_triple.conseq (fun _ h => h) (fun _ _ h => h.1)
    (fun _ h => hwaiting h)) (fun st' => ?_)
  -- the run itself
  have hran {result : Option SyncResult} {r : Rows} {l : List Event}
      (h : Waiting inp zone staged r l) : Ran zone S r (l ++ [.download position lib.zoneName
        inp.config.enumConfigHash decision.source lib.planIsStale result]) := by
    rw [Ran, firstSource_append, h.1, Option.none_or, Event.sourceOf, if_pos hlib, hsource, hS]
  refine Triple.bind (downloadPhotosWithSync_triple (J := fun _ => Ran zone S)
    (E := Waits inp zone staged S) (fun _ _ r l h => hran h) (fun r l h => .inl (hran h)))
    (fun inventory => ?_)
  have hkeeps {α : Type} {x : Cycle α} (h : Keeps (On (Ran zone S)) x) :
      Triple (On (Ran zone S)) x (fun _ => On (Ran zone S)) (On (Waits inp zone staged S)) :=
    h.weaken_halt (fun _ h => .inl h)
  refine Triple.bind (hkeeps (bridgeInventory_keeps (fun r l _ _ => ran_log r l _))) (fun p => ?_)
  obtain ⟨result, basis⟩ := p
  refine Triple.bind (hkeeps (updateInventoryAnchorForCycle_keeps ran_ignoresNotes.anchor))
    (fun _ => hkeeps (finishLibrary_keeps ?_))
  exact storeCheckpoint_ran

theorem KeepsRuns.of_other (hlib : lib.zoneName ≠ zone) :
    KeepsRuns (Waits inp zone staged S) inp position lib :=
  fun _ _ _ _ h => waits_other (if_neg hlib) h

theorem storeCheckpoint_other (hlib : lib.zoneName ≠ zone) :
    Keeps (On (Waits inp zone staged S))
      (storeCheckpoint inp env facts position lib decision st) := by
  refine storeCheckpoint_keeps waits_ignoresNotes.status waits_ignoresNotes.recovery
    (waits_ignores ?_ ?_) (waits_ignores ?_ ?_) (fun _ _ _ _ h => waits_other rfl h)
  · exact fun h => hlib (syncTokenKey_inj h).symm
  · exact (syncTokenKey_ne_pending _ _ _).symm
  · exact syncTokenKey_ne_pending _ _ _
  · exact fun h => hlib (pendingZoneTokenKey_inj h).symm

/-- One library: a zone that waits for its turn has had it when it was the library's own. -/
theorem runLibrary_waits (hS : facts.sourceFor inp staged = S) :
    Triple (On (Waits inp zone staged S)) (runLibrary inp env facts position lib st)
      (fun _ => On (fun r l => Waits inp zone staged S r l ∧
        (lib.zoneName = zone → Ran zone S r l)))
      (On (Waits inp zone staged S)) := by
  by_cases hlib : lib.zoneName = zone
  · intro w hw
    rcases hw with hw | hw
    · have hran : Keeps (On (Ran zone S)) (runLibrary inp env facts position lib st) :=
        runLibrary_keeps ran_ignoresNotes (fun r l _ _ => ran_log r l _)
          (fun _ _ _ _ => storeCheckpoint_ran)
      exact hran.conseq (fun _ h => h) (fun _ _ h => ⟨.inl h, fun _ => h⟩) (fun _ h => .inl h) w hw
    · exact (runLibrary_waiting hlib hS).weaken_post (fun _ _ h => ⟨.inl h, fun _ => h⟩) w hw
  · have hwaits : Keeps (On (Waits inp zone staged S)) (runLibrary inp env facts position lib st) :=
      runLibrary_keeps waits_ignoresNotes (KeepsRuns.of_other hlib)
        (fun _ _ _ _ => storeCheckpoint_other hlib)
    exact hwaits.weaken_post (fun _ _ h => ⟨h, fun hz => absurd hz hlib⟩)

/-! ## the loop -/

theorem runLibrary_stop {P : World → Prop} :
    Triple P (runLibrary inp env facts position lib st)
      (fun p _ => p.2 = true → p.1.sessionExpired = true) (fun _ => True) := by
  have hany {α : Type} {P : World → Prop} {x : Cycle α} :
      Triple P x (fun _ _ => True) (fun _ => True) :=
    Triple.of_post (fun _ _ => trivial) (fun _ => trivial)
  refine Triple.bind hany (fun pending => Triple.bind hany (fun decision => ?_))
  refine Triple.bind hany (fun _ => Triple.bind hany (fun st => ?_))
  refine Triple.bind hany (fun inventory => Triple.bind hany (fun p => ?_))
  obtain ⟨result, basis⟩ := p
  refine Triple.bind hany (fun _ => Triple.bind hany (fun st => ?_))
  cases result.outcome with
  | success => exact Triple.pure (fun _ _ h => absurd h Bool.false_ne_true)
  | sessionExpired n => exact Triple.pure (fun _ _ _ => rfl)
  | partialFailure n => exact Triple.pure (fun _ _ h => absurd h Bool.false_ne_true)

/-- The loop, in a cycle that nothing cuts short, has run the zone of each library. -/
theorem runLibraries_waits (hS : facts.sourceFor inp staged = S) :
    ∀ (libs : List LibraryState) (n : Nat) (st : LoopState),
      Triple (On (Waits inp zone staged S)) (runLibraries inp env facts n libs st)
        (fun st' => On (fun r l => Waits inp zone staged S r l ∧
          (inp.shutdown = none → st'.sessionExpired = false →
            ∀ lib ∈ libs, lib.zoneName = zone → Ran zone S r l)))
        (On (Waits inp zone staged S)) := by
  intro libs
  induction libs with
  | nil =>
      intro n st
      exact Triple.pure (fun w hw => ⟨hw, fun _ _ lib hlib => absurd hlib List.not_mem_nil⟩)
  | cons lib rest ih =>
      intro n st
      refine Triple.ite (fun hcut => Triple.pure (fun w hw => ⟨hw, fun hshut => ?_⟩)) (fun _ => ?_)
      · rw [CycleInput.isCancelled, hshut] at hcut
        contradiction
      refine Triple.bind
        (R := fun p : LoopState × Bool => On (fun r l => (Waits inp zone staged S r l ∧
        (lib.zoneName = zone → Ran zone S r l)) ∧ (p.2 = true → p.1.sessionExpired = true)))
        (((runLibrary_waits hS).and runLibrary_stop).weaken_halt (fun _ h => h.1)) (fun p => ?_)
      obtain ⟨st', stop⟩ := p
      refine Triple.ite (fun hstop => Triple.pure (fun w hw => ⟨hw.1.1, fun _ hexp => ?_⟩))
        (fun _ => ?_)
      · rw [hw.2 hstop] at hexp
        contradiction
      intro w hw
      by_cases hlib : lib.zoneName = zone
      · have hran : Keeps (On (Ran zone S)) (runLibraries inp env facts (n + 1) rest st') :=
          runLibraries_keeps ran_ignoresNotes ran_log (fun _ _ _ _ _ _ => storeCheckpoint_ran) _ _ _
        exact hran.conseq (fun _ h => h) (fun _ _ h => ⟨.inl h, fun _ _ _ _ _ => h⟩)
          (fun _ h => .inl h) w (hw.1.2 hlib)
      · refine (ih (n + 1) st').weaken_post (fun st'' w h => ⟨h.1, ?_⟩) w hw.1.1
        rintro hshut hexp lib' hlib' hzone
        rcases List.mem_cons.mp hlib' with rfl | hrest
        · exact absurd hzone hlib
        · exact h.2 hshut hexp lib' hrest hzone

/-! ## the checks -/

/-- The cycle goes on with a reconciliation for its own hash that already has a candidate
for the zone. -/
structure Resumes (inp : CycleInput) (r : Rows) (zone : String) : Prop where
  refresh : inp.config.refreshMetadata = false
  notDry : inp.config.dryRun = false
  database : inp.hasStateDb = true
  drifted : ∃ stored, r enumConfigHashKey = some stored ∧ stored ≠ inp.config.enumConfigHash
  pending : r pendingEnumConfigHashKey = some inp.config.enumConfigHash
  candidate : (nonBlank (r (pendingZoneTokenKey inp.config.enumConfigHash zone))).isSome = true

/-- The rows a cycle starts from, with an empty history. -/
def StartsFrom (r₀ r : Rows) (l : List Event) : Prop := r = r₀ ∧ l = []

theorem StartsFrom.waiting {r₀ r : Rows} {l : List Event} (h : StartsFrom r₀ r l)
    (inp : CycleInput) (h₀ : r₀ (syncTokenKey zone) = none) :
    Waiting inp zone (r₀ (pendingZoneTokenKey inp.config.enumConfigHash zone)) r l := by
  obtain ⟨rfl, rfl⟩ := h
  exact ⟨rfl, h₀, rfl⟩

/-- After the check: the zone waits, and a reconciliation that has a candidate for it was
there before. -/
def ChecksZone (inp : CycleInput) (zone : String) (r₀ : Rows) (o : EnumConfigHashOutcome)
    (r : Rows) (l : List Event) : Prop :=
  ∃ staged, Waiting inp zone staged r l ∧
    (o = .changed → (nonBlank staged).isSome = true →
      inp.config.dryRun = false ∧ inp.hasStateDb = true ∧
      (∃ stored, r₀ enumConfigHashKey = some stored ∧ stored ≠ inp.config.enumConfigHash) ∧
      r₀ pendingEnumConfigHashKey = some inp.config.enumConfigHash ∧
      r₀ (pendingZoneTokenKey inp.config.enumConfigHash zone) = staged)

theorem pendingZoneTokenKey_ne_pending (hash zone : String) :
    pendingZoneTokenKey hash zone ≠ pendingEnumConfigHashKey :=
  pendingZoneTokenKey_ne_of_take (by decide)

theorem syncTokenKey_ne_pendingHash (zone : String) :
    syncTokenKey zone ≠ pendingEnumConfigHashKey :=
  ne_of_keyHead (keyHead_syncTokenKey zone) (by decide : keyHead _ = some 'p') (by decide)

theorem waiting_deleteCandidates {r : Rows} (h : Waiting inp zone staged r l) :
    Waiting inp zone none (r.deleteByPrefix pendingZoneTokenPrefix) l :=
  ⟨h.1, by rw [deleteByPrefix_of_not r (likePrefix_isActiveKey (by decide) (.inr ⟨zone, rfl⟩)),
    h.2.1], deleteCandidates_candidate r _ _⟩

theorem waiting_deletePending {pre : String} (hpre : keyHead pre = some 'p') :
    Keeps (On (fun r l => ∃ s, Waiting inp zone s r l)) (deleteMetadataByPrefix env pre) := by
  refine write_keeps ?_
  rintro r l ⟨s, h, ha, -⟩
  exact ⟨_, h, by rw [deleteByPrefix_of_not r (likePrefix_isActiveKey hpre (.inr ⟨zone, rfl⟩)), ha],
    rfl⟩

/-- A candidate that is left once the hash is staged was staged for it. -/
def Staged (inp : CycleInput) (zone : String) (pending staged : Option String)
    (o : EnumConfigHashOutcome) (r : Rows) (l : List Event) : Prop :=
  ∃ staged', Waiting inp zone staged' r l ∧ (o = .changed → (nonBlank staged').isSome = true →
    pending = some inp.config.enumConfigHash ∧ staged' = staged)

/-- Staging this cycle's hash: a candidate that is left belongs to it. -/
theorem stageReconciliation_waiting :
    Triple (On (fun r l => Waiting inp zone staged r l ∧ r pendingEnumConfigHashKey = pending))
      (stageReconciliation env inp.config.enumConfigHash)
      (fun o => On (Staged inp zone pending staged o))
      (On (fun _ l => firstSource zone l = none)) := by
  have hstage {s : Option String}
      (hs : (nonBlank s).isSome = true → pending = some inp.config.enumConfigHash ∧ s = staged) :
      Triple (On (Waiting inp zone s)) (stagePending env inp.config.enumConfigHash)
        (fun o => On (Staged inp zone pending staged o))
        (On (fun _ l => firstSource zone l = none)) := by
    refine Triple.bind ((setMetadata_keeps (waiting_ignores (syncTokenKey_ne_pendingHash zone)
      (pendingZoneTokenKey_ne_pending _ zone))).weaken_halt (fun _ h => h.1)) (fun ok => ?_)
    exact Triple.ite (fun _ => Triple.pure (fun w hw => ⟨s, hw, fun _ => hs⟩))
      (fun _ => Triple.pure (fun w hw => ⟨s, hw, fun _ => hs⟩))
  refine Triple.bind (getMetadata_triple.weaken_halt (fun w hw => hw.1.1)) (fun v => ?_)
  cases v with
  | none => exact Triple.pure (fun w hw => ⟨staged, hw.1.1, fun h => by contradiction⟩)
  | some v =>
      refine Triple.pre (p := v = pending) (fun w hw => (hw.2 v rfl).trans hw.1.2) (fun hv => ?_)
      refine Triple.ite (fun _ => ?_) (fun heq => ?_)
      · -- another reconciliation is abandoned: no candidate is left
        have hdelete : Triple (On (Waiting inp zone staged))
            (deleteMetadataByPrefix env pendingZoneTokenPrefix)
            (fun ok => if ok then On (Waiting inp zone none) else On (Waiting inp zone staged))
            (On (fun _ l => firstSource zone l = none)) :=
          (write_triple (fun r l h => waiting_deleteCandidates h)).weaken_halt (fun _ h => h.1)
        refine Triple.bind (hdelete.strengthen_pre (fun w hw => hw.1.1)) (fun ok => ?_)
        cases ok with
        | false => exact Triple.pure (fun w hw => ⟨staged, hw, fun h => by contradiction⟩)
        | true =>
            rw [if_pos rfl]
            refine Triple.ite (fun h => absurd h (by decide)) (fun _ => hstage (fun h => ?_))
            contradiction
      · refine (hstage (fun _ => ⟨?_, rfl⟩)).strengthen_pre (fun w hw => hw.1.1)
        exact hv ▸ Decidable.not_not.mp heq

theorem checkEnumConfigHash_zone {r₀ : Rows} (h₀ : r₀ (syncTokenKey zone) = none) :
    Triple (On (StartsFrom r₀)) (checkEnumConfigHash inp env)
      (fun o => On (ChecksZone inp zone r₀ o)) (On (fun _ l => firstSource zone l = none)) := by
  refine Triple.ite (fun hgo => ?_) (fun _ => Triple.pure (fun w hw =>
    ⟨_, hw.waiting inp h₀, fun h => by contradiction⟩))
  rw [Bool.and_eq_true, Bool.not_eq_true'] at hgo
  refine Triple.bind (R := fun o => On (ChecksZone inp zone r₀ o)) ?_ (fun o => ?_)
  · refine Triple.bind (getMetadata_triple.weaken_halt (fun w hw => (hw.waiting inp h₀).1))
      (fun stored => ?_)
    rcases stored with _ | _ | stored
    · exact Triple.pure (fun w hw => ⟨_, hw.1.waiting inp h₀, fun h => by contradiction⟩)
    · refine Triple.bind ((setMetadata_keeps (waiting_ignores
        (syncTokenKey_ne_enumConfigHashKey zone) (pendingZoneTokenKey_ne_of_take (by decide)))
        |>.conseq (fun w hw => hw.1.waiting inp h₀) (fun _ _ h => h) (fun _ h => h.1))) (fun _ => ?_)
      exact Triple.pure (fun w hw => ⟨_, hw, fun h => by contradiction⟩)
    · refine Triple.ite (fun _ => ?_) (fun hne => ?_)
      · -- the hash is the active one: what was staged is dropped
        have hdelete {pre : String} (hpre : keyHead pre = some 'p') :
            Triple (On (fun r l => ∃ s, Waiting inp zone s r l)) (deleteMetadataByPrefix env pre)
              (fun _ => On (fun r l => ∃ s, Waiting inp zone s r l))
              (On (fun _ l => firstSource zone l = none)) :=
          (waiting_deletePending hpre).weaken_halt (fun w ⟨s, hw⟩ => hw.1)
        refine Triple.bind ((hdelete (by decide)).strengthen_pre (fun w hw => ⟨_, hw.1.waiting inp h₀⟩))
          (fun _ => Triple.bind (hdelete (by decide)) (fun _ => ?_))
        exact Triple.pure (fun w ⟨s, hw⟩ => ⟨s, hw, fun h => by contradiction⟩)
      · refine Triple.pre (p := r₀ enumConfigHashKey = some stored)
          (fun w hw => by rw [← hw.1.1, ← hw.2 _ rfl]) (fun hstored => ?_)
        refine stageReconciliation_waiting.conseq (fun w hw => ⟨hw.1.waiting inp h₀, congrFun hw.1.1 _⟩)
          (fun o w hw => ?_) (fun _ h => h)
        obtain ⟨staged', hwait, hcand⟩ := hw
        refine ⟨staged', hwait, fun ho hs => ?_⟩
        obtain ⟨hpending, heq⟩ := hcand ho hs
        exact ⟨hgo.1, hgo.2, ⟨stored, hstored, hne⟩, hpending, heq.symm⟩
  · refine Triple.ite (fun _ => ?_) (fun _ => Triple.pure (fun w hw => hw))
    refine Triple.bind ((setMetadata_keeps ?_).weaken_halt (fun w ⟨s, hw, _⟩ => hw.1))
      (fun _ => Triple.pure (fun w hw => hw))
    rintro r r' l hr ⟨s, hwait, h⟩
    exact ⟨s, waiting_ignoresNotes _ (.inr (.inl rfl)) r r' l hr hwait, h⟩

theorem waiting_deletePath (r : Rows) (l : List Event) (h : Waiting inp zone staged r l) :
    Waiting inp zone staged (r.deleteByPrefix pendingDownloadConfigHashKey) l := by
  have hcandidate : likePrefix pendingDownloadConfigHashKey.toList
      (pendingZoneTokenKey inp.config.enumConfigHash zone).toList = false := by
    rw [Bool.eq_false_iff]
    intro hlike
    have htake := likePrefix_take 9 hlike
    rw [take_pendingZoneTokenKey] at htake
    revert htake
    decide
  exact ⟨h.1, by rw [deleteByPrefix_of_not r (likePrefix_isActiveKey (by decide)
    (.inr ⟨zone, rfl⟩)), h.2.1], by rw [deleteByPrefix_of_not r hcandidate, h.2.2]⟩

theorem checkDownloadConfigHash_waiting :
    Keeps (On (Waiting inp zone staged)) (checkDownloadConfigHash inp env) :=
  checkDownloadConfigHash_keeps waiting_ignoresNotes waiting_deletePath

/-! ## the cycle -/

/-- After the loop only promotions join the history, and they run nothing. -/
theorem finish_keeps {last : Nat} {I : List Event → Prop}
    (hI : ∀ l hash keys, I l → I (l ++ [.promoted hash keys])) :
    Triple (On (fun _ l => I l))
      (do
        let advanceSafe ← finishReconciliation inp env facts st (inp.isCancelled last)
        promotePathReconciliation inp env facts st (inp.isCancelled (last + 1))
        return (⟨st.failedCount, st.sessionExpired, st.stats, advanceSafe⟩ : CycleResult))
      (fun result => On (fun _ l => I l ∧ result.sessionExpired = st.sessionExpired))
      (On (fun _ l => I l)) := by
  refine Triple.bind
    (finishReconciliation_keeps (fun _ _ _ h _ _ => h) (fun _ l _ _ h => hI l _ _ h))
    (fun safe => ?_)
  refine Triple.bind (promotePathReconciliation_keeps (fun _ _ _ _ h => h) (fun _ _ _ _ h => h))
    (fun _ => ?_)
  exact Triple.pure (fun w hw => ⟨hw, rfl⟩)

/-- The zone's runs, so far, began with a full enumeration. -/
def FullFirst (zone : String) (l : List Event) : Prop :=
  ∀ s, firstSource zone l = some s → s = .full

/-- **A zone without an active token is enumerated in full**, unless the cycle resumes a
reconciliation for it. -/
theorem runCycle_full {r₀ : Rows} (h₀ : r₀ (syncTokenKey zone) = none)
    (hno : ¬Resumes inp r₀ zone) :
    Triple (On (StartsFrom r₀)) (runCycle inp env)
      (fun result => On (fun _ l => (FullFirst zone l ∧ (inp.shutdown = none →
        result.sessionExpired = false → ∀ lib ∈ inp.active, lib.zoneName = zone →
          firstSource zone l = some .full))))
      (On (fun _ l => FullFirst zone l)) := by
  have hnone {l : List Event} (h : firstSource zone l = none) : FullFirst zone l := by
    intro s hs
    rw [h] at hs
    contradiction
  refine Triple.bind ((checkEnumConfigHash_zone h₀).weaken_halt (fun _ h => hnone h)) (fun o => ?_)
  refine Triple.exists_pre (fun staged => Triple.pre (fun w hw => hw.2) (fun hcand => ?_))
  refine Triple.bind (checkDownloadConfigHash_waiting.conseq (fun w hw => hw.1)
    (fun _ _ h => h) (fun _ h => hnone h.1)) (fun d => ?_)
  have hS : (cycleFacts inp o d).sourceFor inp staged = .full := by
    refine if_neg ?_
    rintro ⟨hrefresh, hchanged, -, hsome⟩
    obtain ⟨hdry, hdb, hdrift, hpending, hstaged⟩ := hcand hchanged hsome
    exact hno ⟨hrefresh, hdry, hdb, hdrift, hpending, by rw [hstaged, hsome]⟩
  refine Triple.bind ((runLibraries_waits hS inp.active 0 _).conseq (fun w hw => .inr hw)
    (fun _ _ h => h) (fun w hw s hs => waits_source hw hs)) (fun st => ?_)
  refine (finish_keeps (I := fun l => FullFirst zone l ∧ (inp.shutdown = none →
    st.sessionExpired = false → ∀ lib ∈ inp.active, lib.zoneName = zone →
      firstSource zone l = some .full)) (fun l hash keys h => ?_)).conseq
    (fun w hw => ⟨fun s hs => waits_source hw.1 hs, hw.2⟩) (fun result w hw => ?_)
    (fun w hw => hw.1)
  · have hpromoted : firstSource zone (l ++ [.promoted hash keys]) = firstSource zone l :=
      firstSource_other rfl
    unfold FullFirst
    rw [hpromoted]
    exact h
  · exact ⟨hw.1.1, fun hshut hexp => hw.1.2 hshut (hw.2 ▸ hexp)⟩

/-! ## an environment without faults -/

/-- From every world the program returns a result in `Q`. -/
def Succeeds {α : Type} (x : Cycle α) (Q : α → Prop) : Prop :=
  Triple (fun _ => True) x (fun a _ => Q a) (fun _ => False)

namespace Succeeds

variable {α β : Type} {Q : α → Prop} {R : β → Prop}

theorem pure {a : α} (h : Q a) : Succeeds (pure a : Cycle α) Q := fun _ _ => h

theorem bind {x : Cycle α} {f : α → Cycle β} (hx : Succeeds x Q)
    (hf : ∀ a, Q a → Succeeds (f a) R) : Succeeds (x >>= f) R :=
  Triple.bind hx (fun a => Triple.pre (fun _ h => h) (fun ha =>
    (hf a ha).strengthen_pre (fun _ _ => trivial)))

theorem ite {c : Prop} [Decidable c] {x y : Cycle α} (hx : c → Succeeds x Q)
    (hy : ¬c → Succeeds y Q) : Succeeds (if c then x else y) Q := Triple.ite hx hy

theorem keeps {x : Cycle α} (hx : Succeeds x Q) {I : World → Prop} {J : α → World → Prop}
    {E : World → Prop} (hkeeps : Triple I x J E) :
    Triple I x (fun a w => Q a ∧ J a w) (fun _ => False) :=
  ((hx.strengthen_pre (fun _ _ => trivial)).and hkeeps).weaken_halt (fun _ h => h.1)

theorem getMetadata (key : String) :
    Succeeds (SyncCycle.getMetadata Env.clean key) (fun v => v.isSome = true) := fun _ _ => rfl

theorem getMetadataOrFail (key : String) :
    Succeeds (SyncCycle.getMetadataOrFail Env.clean key) (fun _ => True) := fun _ _ => trivial

theorem write (f : Rows → Rows) : Succeeds (SyncCycle.write Env.clean f) (fun _ => True) :=
  fun _ _ => trivial

theorem setMetadata (key value : String) :
    Succeeds (SyncCycle.setMetadata Env.clean key value) (fun _ => True) := write _

theorem record (e : Event) : Succeeds (SyncCycle.record e) (fun _ => True) := fun _ _ => trivial

end Succeeds

theorem checkDownloadConfigHash_succeeds :
    Succeeds (checkDownloadConfigHash inp Env.clean) (fun _ => True) := by
  refine Succeeds.ite (fun _ => ?_) (fun _ => Succeeds.pure trivial)
  refine Succeeds.bind (Q := fun _ => True) ?_ (fun _ _ => Succeeds.pure trivial)
  refine Succeeds.bind (Succeeds.getMetadata _) (fun v hv => ?_)
  rcases v with _ | _ | stored
  · contradiction
  · exact Succeeds.bind (Succeeds.setMetadata _ _) (fun _ _ => Succeeds.ite
      (fun _ => Succeeds.pure trivial) (fun _ => Succeeds.pure trivial))
  · refine Succeeds.ite (fun _ => ?_) (fun _ => Succeeds.ite (fun _ => ?_) (fun _ => ?_))
    · exact Succeeds.bind (Succeeds.write _) (fun _ _ => Succeeds.pure trivial)
    · exact Succeeds.bind (Succeeds.write _) (fun _ _ => Succeeds.ite
        (fun _ => Succeeds.pure trivial) (fun _ => Succeeds.pure trivial))
    · refine Succeeds.bind (Succeeds.setMetadata _ _) (fun _ _ => Succeeds.ite (fun _ => ?_)
        (fun _ => Succeeds.pure trivial))
      exact Succeeds.bind (Succeeds.setMetadata _ _) (fun _ _ => Succeeds.pure trivial)

theorem chooseSyncMode_succeeds :
    Succeeds (chooseSyncMode inp Env.clean facts lib pending) (fun _ => True) := by
  refine Succeeds.ite (fun _ => Succeeds.pure trivial) (fun _ => ?_)
  cases pending with
  | some token => exact Succeeds.pure trivial
  | none =>
      refine Succeeds.ite (fun _ => Succeeds.pure trivial) (fun _ => Succeeds.ite
        (fun _ => Succeeds.pure trivial) (fun _ => Succeeds.ite (fun _ => ?_)
          (fun _ => Succeeds.pure trivial)))
      refine Succeeds.bind (Succeeds.getMetadata _) (fun v hv => ?_)
      rcases v with _ | _ | token
      · contradiction
      · exact Succeeds.pure trivial
      · exact Succeeds.ite (fun _ => Succeeds.pure trivial) (fun _ => Succeeds.pure trivial)

theorem downloadPhotosWithSync_succeeds {mode : SyncMode} {source : TokenSource} :
    Succeeds (downloadPhotosWithSync inp Env.clean position lib mode source)
      (fun result => result.outcome = .success) := by
  cases mode with
  | full => exact fun _ _ => rfl
  | incremental token => exact fun _ _ => rfl

theorem mergeBridge_outcome (inp : CycleInput) (lib : LibraryState) (result bridge : SyncResult) :
    (mergeBridge inp lib result bridge).1.outcome =
      mergeDownloadOutcomes result.outcome bridge.outcome := by
  unfold mergeBridge
  cases bridge.fullEnumerationRan with
  | true => rfl
  | false =>
      cases sourceCheckpointDecision bridge inp.config.dryRun lib.planIsStale .incrementalDelta with
      | advance token basis => rfl
      | preserve reason recovery => rfl

theorem bridgeInventory_succeeds {result : SyncResult} (h : result.outcome = .success) :
    Succeeds (bridgeInventory inp Env.clean facts position lib result)
      (fun p => p.1.outcome = .success) := by
  refine Succeeds.ite (fun _ => ?_) (fun _ => Succeeds.pure h)
  refine Succeeds.bind (Q := fun _ => True) (Succeeds.ite
    (fun _ => Succeeds.getMetadataOrFail _) (fun _ => Succeeds.pure trivial)) (fun prior _ => ?_)
  cases nonBlank prior with
  | none => exact Succeeds.pure h
  | some token =>
      refine Succeeds.ite (fun _ => ?_) (fun _ => Succeeds.pure h)
      refine Succeeds.bind downloadPhotosWithSync_succeeds (fun bridge hb => Succeeds.pure ?_)
      rw [mergeBridge_outcome, h, hb]
      rfl

theorem storeCheckpoint_succeeds :
    Succeeds (storeCheckpoint inp Env.clean facts position lib decision st)
      (fun st' => st'.sessionExpired = st.sessionExpired) := by
  have hstored {f : Rows → Rows} {e : Event} : Succeeds
      (do
        if ← write Env.clean f then
          record e
          return st
        else
          return st.storeFailed)
      (fun st' => st'.sessionExpired = st.sessionExpired) :=
    Succeeds.bind (Succeeds.write f) (fun _ _ => Succeeds.ite
      (fun _ => Succeeds.bind (Succeeds.record e) (fun _ _ => Succeeds.pure rfl))
      (fun _ => Succeeds.pure rfl))
  cases decision with
  | advance token basis =>
      exact Succeeds.ite (fun _ => Succeeds.ite (fun _ => hstored) (fun _ => hstored))
        (fun _ => Succeeds.pure rfl)
  | preserve reason recovery =>
      exact Succeeds.ite (fun _ => Succeeds.bind (Succeeds.write _) (fun _ _ => Succeeds.pure rfl))
        (fun _ => Succeeds.pure rfl)

theorem runLibrary_succeeds :
    Succeeds (runLibrary inp Env.clean facts position lib st)
      (fun p => p.1.sessionExpired = st.sessionExpired ∧ p.2 = false) := by
  refine Succeeds.bind (Q := fun _ => True) ?_ (fun pending _ => ?_)
  · refine Succeeds.ite (fun _ => Succeeds.ite (fun _ => ?_) (fun _ => Succeeds.pure trivial))
      (fun _ => Succeeds.pure trivial)
    exact Succeeds.bind (Succeeds.getMetadataOrFail _) (fun _ _ => Succeeds.pure trivial)
  refine Succeeds.bind chooseSyncMode_succeeds (fun decision _ => ?_)
  refine Succeeds.bind (Q := fun _ => True) ?_ (fun _ _ => ?_)
  · cases decision.fullEnumerationReason with
    | none => exact Succeeds.pure trivial
    | some reason =>
        exact Succeeds.ite (fun _ => Succeeds.bind (Succeeds.setMetadata _ _)
          (fun _ _ => Succeeds.pure trivial)) (fun _ => Succeeds.pure trivial)
  refine Succeeds.bind (Q := fun st' => st'.sessionExpired = st.sessionExpired)
    (Succeeds.ite (fun _ => ?_) (fun _ => Succeeds.pure rfl)) (fun st' hst => ?_)
  · exact Succeeds.bind (Q := fun _ => True) (fun _ _ => trivial) (fun _ _ => fun _ _ => rfl)
  refine Succeeds.bind downloadPhotosWithSync_succeeds (fun inventory hinv => ?_)
  refine Succeeds.bind (bridgeInventory_succeeds hinv) (fun p hp => ?_)
  obtain ⟨result, basis⟩ := p
  refine Succeeds.bind (Q := fun _ => True) ?_ (fun _ _ => ?_)
  · exact Succeeds.ite (fun _ => Succeeds.bind (Succeeds.getMetadata _)
      (fun _ _ => fun _ _ => trivial)) (fun _ => Succeeds.pure trivial)
  refine Succeeds.bind storeCheckpoint_succeeds (fun st'' hst' => ?_)
  rw [show result.outcome = .success from hp]
  exact Succeeds.pure ⟨hst'.trans hst, rfl⟩

theorem runLibraries_succeeds :
    ∀ (libs : List LibraryState) (n : Nat) (st : LoopState),
      Succeeds (runLibraries inp Env.clean facts n libs st)
        (fun st' => st'.sessionExpired = st.sessionExpired) := by
  intro libs
  induction libs with
  | nil => exact fun _ _ => Succeeds.pure rfl
  | cons lib rest ih =>
      intro n st
      refine Succeeds.ite (fun _ => Succeeds.pure rfl) (fun _ => ?_)
      refine Succeeds.bind runLibrary_succeeds (fun p hp => ?_)
      obtain ⟨st', stop⟩ := p
      refine Succeeds.ite (fun _ => Succeeds.pure hp.1) (fun _ => ?_)
      exact (ih (n + 1) st').weaken_post (fun _ _ h => h.trans hp.1)

/-! ## a cycle that resumes -/

/-- The check finds its own reconciliation, and keeps its candidates. -/
theorem checkEnumConfigHash_resumes {r₀ : Rows} (h₀ : r₀ (syncTokenKey zone) = none)
    (hres : Resumes inp r₀ zone) :
    Triple (On (StartsFrom r₀)) (checkEnumConfigHash inp Env.clean)
      (fun o => On (fun r l => o = .changed ∧
        Waiting inp zone (r₀ (pendingZoneTokenKey inp.config.enumConfigHash zone)) r l))
      (fun _ => False) := by
  obtain ⟨stored, hstored, hne⟩ := hres.drifted
  have hset {key value : String} (hactive : syncTokenKey zone ≠ key)
      (hstaged : pendingZoneTokenKey inp.config.enumConfigHash zone ≠ key)
      {staged : Option String} :
      Returns (Waiting inp zone staged) (setMetadata Env.clean key value)
        (fun ok r l => ok = true ∧ Waiting inp zone staged r l) :=
    write_clean (fun r l h => (waiting_ignores hactive hstaged).set r l h)
  refine Triple.ite (fun _ => ?_) (fun hno => ?_)
  · refine Triple.bind (R := fun o => On (fun r l => o = .changed ∧
      Waiting inp zone (r₀ (pendingZoneTokenKey inp.config.enumConfigHash zone)) r l)) ?_
      (fun o => ?_)
    · refine Triple.bind getMetadata_clean (fun v => ?_)
      refine Triple.pre (p := v = some (some stored)) (fun w hw => ?_) (fun hv => ?_)
      · rw [hw.1, hw.2.1, hstored]
      subst hv
      refine Triple.ite (fun h => absurd h hne) (fun _ => ?_)
      refine Triple.bind
        ((getMetadata_clean (I := StartsFrom r₀)).strengthen_pre (fun w hw => hw.2)) (fun v => ?_)
      refine Triple.pre (p := v = some (some inp.config.enumConfigHash)) (fun w hw => ?_)
        (fun hv => ?_)
      · rw [hw.1, hw.2.1, hres.pending]
      subst hv
      refine Triple.ite (fun h => absurd rfl h) (fun _ => ?_)
      refine Triple.bind ((hset (syncTokenKey_ne_pendingHash zone)
        (pendingZoneTokenKey_ne_pending _ zone)).strengthen_pre (fun w hw => hw.2.waiting inp h₀))
        (fun ok => ?_)
      refine Triple.pre (p := ok = true) (fun w hw => hw.1) (fun hok => ?_)
      subst hok
      exact Triple.ite (fun _ => Triple.pure (fun w hw => ⟨rfl, hw.2⟩))
        (fun h => absurd rfl h)
    · refine Triple.pre (p := o = .changed) (fun w hw => hw.1) (fun ho => ?_)
      subst ho
      refine Triple.ite (fun _ => ?_) (fun h => absurd rfl h)
      have hnote : IsNoteKey lastRecoveryActionKey := .inr (.inl rfl)
      refine Triple.bind
        ((hset (ne_note hnote zone "").1 (ne_note hnote zone _).2).strengthen_pre
        (fun w hw => hw.2)) (fun _ => ?_)
      exact Triple.pure (fun w hw => ⟨rfl, hw.2⟩)
  · rw [hres.notDry, hres.database] at hno
    exact absurd rfl hno

/-- **A cycle that resumes goes on from the candidate**: when nothing fails, the zone's run
is not a full enumeration. -/
theorem runCycle_resumes {r₀ : Rows} (h₀ : r₀ (syncTokenKey zone) = none)
    (hres : Resumes inp r₀ zone) (hshut : inp.shutdown = none) (hlib : lib ∈ inp.active)
    (hzone : lib.zoneName = zone) :
    Triple (On (StartsFrom r₀)) (runCycle inp Env.clean)
      (fun _ => On (fun _ l => firstSource zone l = some .candidate))
      (On (fun _ l => firstSource zone l = some .candidate)) := by
  have hno {I : World → Prop} {α : Type} {x : Cycle α} {Q : α → World → Prop}
      (h : Triple I x Q (fun _ => False)) :
      Triple I x Q (On (fun _ l => firstSource zone l = some .candidate)) :=
    h.weaken_halt (fun _ h => h.elim)
  refine Triple.bind (hno (checkEnumConfigHash_resumes h₀ hres)) (fun o => ?_)
  refine Triple.pre (p := o = .changed) (fun w hw => hw.1) (fun ho => ?_)
  subst ho
  refine Triple.bind (hno (checkDownloadConfigHash_succeeds.keeps (checkDownloadConfigHash_waiting
    |>.strengthen_pre (fun w hw => hw.2)))) (fun d => ?_)
  have hS : (cycleFacts inp .changed d).sourceFor inp
      (r₀ (pendingZoneTokenKey inp.config.enumConfigHash zone)) = .candidate :=
    if_pos ⟨hres.refresh, rfl, hres.database, hres.candidate⟩
  refine Triple.bind (hno (runLibraries_succeeds inp.active 0 _ |>.keeps
    ((runLibraries_waits hS inp.active 0 _).strengthen_pre (fun w hw => .inr hw.2)))) (fun st => ?_)
  refine (finish_keeps (I := fun l => firstSource zone l = some .candidate)
    (fun l _ _ h => firstSource_mono h _)).conseq (fun w hw => ?_) (fun _ w hw => hw.1)
    (fun _ h => h)
  exact hw.2.2 hshut hw.1 lib hlib hzone

end Kei.SyncCycle
