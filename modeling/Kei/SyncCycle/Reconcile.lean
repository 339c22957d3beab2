import Kei.SyncCycle.Calls
import Mathlib.Data.List.Induction

/-!
# Kei.SyncCycle.Reconcile

What a drifted enumeration config does to the active checkpoint state: the
active hash and the active zone tokens stay as they are, whatever fails and
wherever the process stops, until one transition replaces them together.
-/

namespace Kei.SyncCycle

open Str
open Store
open Prog

variable {env : Env} {inp : CycleInput} {facts : CycleFacts} {lib : LibraryState}
  {position : Nat}

/-! ## keys -/

/-- The rows a later cycle trusts: the active hash and the active zone tokens. -/
def IsActiveKey (key : String) : Prop :=
  key = enumConfigHashKey ∨ ∃ zone, key = syncTokenKey zone

/-- The first character of a key. -/
def keyHead (key : String) : Option Char := key.toList.head?

theorem keyHead_append (s t : String) (h : s.toList ≠ []) : keyHead (s ++ t) = keyHead s := by
  unfold keyHead
  rw [String.toList_append]
  cases hs : s.toList with
  | nil => contradiction
  | cons c l => rfl

theorem keyHead_syncTokenKey (zone : String) : keyHead (syncTokenKey zone) = some 's' := by
  rw [syncTokenKey, keyHead_append _ _ (by decide)]
  decide

theorem keyHead_pendingZoneTokenKey (hash zone : String) :
    keyHead (pendingZoneTokenKey hash zone) = some 'p' := by
  unfold pendingZoneTokenKey
  rw [String.append_assoc, String.append_assoc, keyHead_append _ _ (by decide)]
  decide

theorem keyHead_inventoryAnchorKey (hash zone : String) :
    keyHead (inventoryAnchorKey hash zone) = some 'i' := by
  unfold inventoryAnchorKey
  rw [String.append_assoc, String.append_assoc, keyHead_append _ _ (by decide)]
  decide

variable {key : String}

theorem keyHead_of_isActiveKey (h : IsActiveKey key) :
    keyHead key = some 'e' ∨ keyHead key = some 's' := by
  rcases h with rfl | ⟨zone, rfl⟩
  · exact .inl (by decide)
  · exact .inr (keyHead_syncTokenKey zone)

theorem not_isActiveKey {c : Char} (h : keyHead key = some c) (he : c ≠ 'e') (hs : c ≠ 's') :
    ¬ IsActiveKey key := by
  intro hk
  rcases keyHead_of_isActiveKey hk with h' | h'
  · exact he (Option.some.inj (h.symm.trans h'))
  · exact hs (Option.some.inj (h.symm.trans h'))

theorem keyHead_of_isNoteKey (h : IsNoteKey key) :
    keyHead key = some 'l' ∨ keyHead key = some 'c' ∨ keyHead key = some 'p' ∨
      keyHead key = some 'i' := by
  rcases h with rfl | rfl | rfl | rfl | rfl | ⟨hash, zone, rfl⟩
  · exact .inl (by decide)
  · exact .inl (by decide)
  · exact .inl (by decide)
  · exact .inr (.inl (by decide))
  · exact .inr (.inr (.inl (by decide)))
  · exact .inr (.inr (.inr (keyHead_inventoryAnchorKey hash zone)))

/-- A pattern only matches keys that start with its first character, whatever the case. -/
theorem likePrefix_eq_false {p c : Char} {ps cs : List Char} (h : likeChar p c = false) :
    likePrefix (p :: ps) (c :: cs) = false := by
  rw [likePrefix, h, Bool.false_and]

/-- A pattern that matches a key has a start that matches the key's start. -/
theorem likePrefix_take {p c : List Char} (n : Nat) (h : likePrefix p c = true) :
    likePrefix (p.take n) (c.take n) = true := by
  induction n generalizing p c with
  | zero => rfl
  | succ n ih =>
      cases p with
      | nil => rfl
      | cons x p =>
          cases c with
          | nil => contradiction
          | cons y c =>
              rw [likePrefix, Bool.and_eq_true] at h
              rw [List.take_succ_cons, List.take_succ_cons, likePrefix, h.1, ih h.2]
              rfl

theorem likePrefix_isActiveKey {pre key : String} (hpre : keyHead pre = some 'p')
    (hk : IsActiveKey key) : likePrefix pre.toList key.toList = false := by
  unfold keyHead at hpre
  obtain ⟨ps, hps⟩ := List.head?_eq_some_iff.mp hpre
  rw [hps]
  rcases keyHead_of_isActiveKey hk with h | h
  all_goals
    obtain ⟨cs, hcs⟩ := List.head?_eq_some_iff.mp h
    rw [hcs]
    exact likePrefix_eq_false (by decide)

/-! ## the active state -/

/-- The active state of `r` is that of `r₀`. -/
def SameActive (r₀ r : Rows) : Prop := ∀ key, IsActiveKey key → r key = r₀ key

theorem SameActive.refl (r : Rows) : SameActive r r := fun _ _ => rfl

theorem SameActive.trans {r₀ r₁ r₂ : Rows} (h : SameActive r₀ r₁) (h' : SameActive r₁ r₂) :
    SameActive r₀ r₂ := fun key hk => (h' key hk).trans (h key hk)

/-- `SameActive` as an assertion. -/
def Same (r₀ : Rows) (r : Rows) (_ : List Event) : Prop := SameActive r₀ r

variable {r₀ : Rows}

theorem same_ignores (h : ¬ IsActiveKey key) : Ignores (Same r₀) key := by
  intro r r' l hr hs k hk
  rw [← hr k (fun hkey => h (hkey ▸ hk)), hs k hk]

theorem same_ignoresNotes : IgnoresNotes (Same r₀) := by
  intro key hk
  refine same_ignores ?_
  rcases keyHead_of_isNoteKey hk with h | h | h | h
  all_goals exact not_isActiveKey h (by decide) (by decide)

theorem same_deleteByPrefix {pre : String} (hpre : keyHead pre = some 'p') (r : Rows)
    (l : List Event) (h : Same r₀ r l) : Same r₀ (r.deleteByPrefix pre) l := by
  intro k hk
  rw [deleteByPrefix_of_not r (likePrefix_isActiveKey hpre hk), h k hk]

theorem deletePending_keeps {pre : String} (hpre : keyHead pre = some 'p') :
    Keeps (On (Same r₀)) (deleteMetadataByPrefix env pre) :=
  write_keeps (same_deleteByPrefix hpre)

/-! ## the checks -/

/-- Staging a reconciliation keeps the active state and forces a full sync. -/
theorem stageReconciliation_triple {hash : String} :
    Triple (On (Same r₀)) (stageReconciliation env hash)
      (fun o => On (fun r l => Same r₀ r l ∧ o.mustForceFullSync = true)) (On (Same r₀)) := by
  refine Triple.bind getMetadata_keeps (fun pending => ?_)
  cases pending with
  | none => exact Triple.pure (fun w hw => ⟨hw, rfl⟩)
  | some pending =>
      have hset : Triple (On (Same r₀)) (stagePending env hash)
          (fun o => On (fun r l => Same r₀ r l ∧ o.mustForceFullSync = true))
          (On (Same r₀)) := by
        refine Triple.bind (setMetadata_keeps (same_ignores ?_)) (fun ok => ?_)
        · exact not_isActiveKey (c := 'p') (by decide) (by decide) (by decide)
        · exact Triple.ite (fun _ => Triple.pure (fun w hw => ⟨hw, rfl⟩))
            (fun _ => Triple.pure (fun w hw => ⟨hw, rfl⟩))
      refine Triple.ite (fun _ => ?_) (fun _ => hset)
      refine Triple.bind (deletePending_keeps (by decide)) (fun ok => ?_)
      exact Triple.ite (fun _ => Triple.pure (fun w hw => ⟨hw, rfl⟩)) (fun _ => hset)

/-- A hash that differs from the active one is never persisted as active. -/
theorem checkAndPersistEnumConfigHash_triple {hash stored : String}
    (hstored : r₀ enumConfigHashKey = some stored) (hne : stored ≠ hash) :
    Triple (On (Same r₀)) (checkAndPersistEnumConfigHash env hash)
      (fun o => On (fun r l => Same r₀ r l ∧ o.mustForceFullSync = true)) (On (Same r₀)) := by
  refine Triple.bind getMetadata_triple (fun v => ?_)
  cases v with
  | none => exact Triple.pure (fun w hw => ⟨hw.1, rfl⟩)
  | some v =>
      refine Triple.pre (p := v = some stored) (fun w hw => ?_) (fun hv => ?_)
      · rw [hw.2 v rfl, hw.1 _ (.inl rfl), hstored]
      · subst hv
        refine Triple.ite (fun h => absurd h hne) (fun _ => ?_)
        exact stageReconciliation_triple.strengthen_pre (fun w hw => hw.1)

/-- A cycle that cannot write an active token: it reconciles, is a dry run, or
has no database. -/
def HoldsActive (inp : CycleInput) (reconciling : Bool) : Prop :=
  reconciling = true ∨ inp.config.dryRun = true ∨ inp.hasStateDb = false

variable {stored : String}

theorem checkEnumConfigHash_triple (hstored : r₀ enumConfigHashKey = some stored)
    (hne : stored ≠ inp.config.enumConfigHash) :
    Triple (On (Same r₀)) (checkEnumConfigHash inp env)
      (fun o => On (fun r l => Same r₀ r l ∧ HoldsActive inp o.mustForceFullSync))
      (On (Same r₀)) := by
  refine Triple.ite (fun _ => ?_) (fun h => ?_)
  · refine Triple.bind (checkAndPersistEnumConfigHash_triple hstored hne) (fun o => ?_)
    refine Triple.pre (p := o.mustForceFullSync = true) (fun w hw => hw.2) (fun ho => ?_)
    refine Triple.ite (fun _ => ?_) (fun _ => Triple.pure (fun w hw => ⟨hw.1, .inl ho⟩))
    have hset : Keeps (On (Same r₀)) (setMetadata env lastRecoveryActionKey
        (RecoveryAction.reconcileInventory .enumConfigHashDrift).asStr) :=
      setMetadata_keeps same_ignoresNotes.recovery
    refine Triple.bind (hset.strengthen_pre (fun w hw => hw.1))
      (fun _ => Triple.pure (fun w hw => ⟨hw, .inl ho⟩))
  · refine Triple.pure (fun w hw => ⟨hw, .inr ?_⟩)
    by_cases hdry : inp.config.dryRun = true
    · exact .inl hdry
    · refine .inr ?_
      simpa [hdry] using h

theorem checkDownloadConfigHash_same :
    Keeps (On (Same r₀)) (checkDownloadConfigHash inp env) :=
  checkDownloadConfigHash_keeps same_ignoresNotes (same_deleteByPrefix (by decide))

/-! ## the loop -/

theorem checkpointDecision_dryRun (hdry : inp.config.dryRun = true) {result : SyncResult}
    {basis : CheckpointBasis} {cancelled : Bool} {token : String} {b : CheckpointBasis} :
    checkpointDecision inp facts lib result basis cancelled ≠ .advance token b := by
  intro hadvance
  have hmay := checkpointDecision_isAdvance (congrArg SourceCheckpointDecision.isAdvance hadvance)
  simp [hdry] at hmay

theorem same_ignores_candidate (hash zone : String) :
    Ignores (Same r₀) (pendingZoneTokenKey hash zone) :=
  same_ignores (not_isActiveKey (keyHead_pendingZoneTokenKey hash zone) (by decide) (by decide))

theorem storeAdvance_same {token : String} {st : LoopState}
    (h : facts.reconciliationActive = true ∨ inp.hasStateDb = false) :
    Keeps (On (Same r₀)) (storeAdvance inp env facts position lib token st) := by
  refine Keeps.ite (fun hdb => ?_) (fun _ => Keeps.pure _)
  have hrec : facts.reconciliationActive = true := by
    rcases h with h | h
    · exact h
    · rw [h] at hdb; contradiction
  refine Keeps.ite (fun _ => ?_) (fun hn => absurd hrec hn)
  refine Keeps.bind (setMetadata_keeps (same_ignores_candidate _ _)) (fun ok => ?_)
  refine Keeps.ite (fun _ => ?_) (fun _ => Keeps.pure _)
  exact Keeps.bind (record_triple (fun _ _ h => h)) (fun _ => Keeps.pure _)

theorem storeCheckpoint_same {result : SyncResult} {basis : CheckpointBasis} {cancelled : Bool}
    {st : LoopState} (h : HoldsActive inp facts.reconciliationActive) :
    Keeps (On (Same r₀)) (storeCheckpoint inp env facts position lib
      (checkpointDecision inp facts lib result basis cancelled) st) := by
  cases hd : checkpointDecision inp facts lib result basis cancelled with
  | preserve reason recovery =>
      exact (storePreserve_keeps same_ignoresNotes.status
        same_ignoresNotes.recovery).weaken_post (fun _ _ h => h.1)
  | advance token b =>
      refine storeAdvance_same ?_
      rcases h with h | h | h
      · exact .inl h
      · exact absurd hd (checkpointDecision_dryRun h)
      · exact .inr h

theorem runLibraries_same (h : HoldsActive inp facts.reconciliationActive) (i : Nat)
    (libs : List LibraryState) (st : LoopState) :
    Keeps (On (Same r₀)) (runLibraries inp env facts i libs st) :=
  runLibraries_keeps same_ignoresNotes (fun _ _ _ h => h)
    (fun _ _ _ _ _ _ => storeCheckpoint_same h) libs i st

/-! ## promotion -/

/-- The rows `after` a cycle that promoted its reconciliation: one transition was
applied to rows with the old active state, and it moved every active library's
candidate.  Only the path hashes may have changed since. -/
def Promoted (inp : CycleInput) (r₀ after : Rows) : Prop :=
  ∃ (before : Rows) (candidates : List (LibraryState × String)),
    SameActive r₀ before ∧ candidates.map (·.1) = inp.active ∧
    (∀ c ∈ candidates, nonBlank (some c.2) = some c.2 ∧
      before (pendingZoneTokenKey inp.config.enumConfigHash c.1.zoneName) = some c.2) ∧
    ∀ key, key ≠ downloadConfigHashKey → key ≠ pendingDownloadConfigHashKey →
      after key = before.transition (promotionTransition inp.config.enumConfigHash candidates) key

/-- The commit of a promotion is all that separates the two active states. -/
theorem promoteReconciliation_triple :
    Triple (On (Same r₀)) (promoteReconciliation inp env)
      (fun _ => On (fun r _ => SameActive r₀ r ∨ Promoted inp r₀ r)) (On (Same r₀)) := by
  refine promoteReconciliation_rule (J := fun _ r _ => SameActive r₀ r ∨ Promoted inp r₀ r)
    (fun _ _ h => .inl h) (fun r l cs hsame hlibs hcs => .inr ?_)
  exact ⟨r, cs, hsame, hlibs, hcs, fun _ _ _ => rfl⟩

/-- Either active state, as an assertion. -/
def SameOrPromoted (inp : CycleInput) (r₀ : Rows) (r : Rows) (_ : List Event) : Prop :=
  SameActive r₀ r ∨ Promoted inp r₀ r

theorem sameOrPromoted_ignores
    (hkey : key = downloadConfigHashKey ∨ key = pendingDownloadConfigHashKey) :
    Ignores (SameOrPromoted inp r₀) key := by
  intro r r' l hr hs
  rcases hs with hs | ⟨before, candidates, hsame, hlibs, hcand, hafter⟩
  · refine .inl (same_ignores ?_ r r' l hr hs)
    rcases hkey with rfl | rfl
    · exact not_isActiveKey (c := 'c') (by decide) (by decide) (by decide)
    · exact not_isActiveKey (c := 'p') (by decide) (by decide) (by decide)
  · refine .inr ⟨before, candidates, hsame, hlibs, hcand, fun k hk hk' => ?_⟩
    rw [← hafter k hk hk']
    refine (hr k (fun h => ?_)).symm
    rcases hkey with rfl | rfl
    · exact hk h
    · exact hk' h

theorem runCycle_sameOrPromoted (env : Env) (hstored : r₀ enumConfigHashKey = some stored)
    (hne : stored ≠ inp.config.enumConfigHash) :
    Triple (On (Same r₀)) (runCycle inp env) (fun _ => On (SameOrPromoted inp r₀))
      (On (SameOrPromoted inp r₀)) := by
  have hweak {α : Type} {x : Cycle α} {Q : α → World → Prop} (h : Triple (On (Same r₀)) x Q
      (On (Same r₀))) : Triple (On (Same r₀)) x Q (On (SameOrPromoted inp r₀)) :=
    h.weaken_halt (fun _ h => .inl h)
  refine Triple.bind (hweak (checkEnumConfigHash_triple hstored hne)) (fun enumOutcome => ?_)
  refine Triple.pre (p := HoldsActive inp enumOutcome.mustForceFullSync) (fun w hw => hw.2)
    (fun hholds => ?_)
  refine Triple.bind (R := fun _ => On (Same r₀)) ?_ (fun downloadOutcome => ?_)
  · exact (hweak checkDownloadConfigHash_same).strengthen_pre (fun w hw => hw.1)
  refine Triple.bind (hweak (runLibraries_same hholds 0 inp.active _)) (fun st => ?_)
  refine Triple.bind (R := fun _ => On (SameOrPromoted inp r₀)) ?_ (fun _ => ?_)
  · exact Triple.ite (fun _ => hweak promoteReconciliation_triple)
      (fun _ => Triple.pure (fun w hw => .inl hw))
  · exact Triple.bind (promotePathReconciliation_keeps (sameOrPromoted_ignores (.inl rfl))
      (sameOrPromoted_ignores (.inr rfl))) (fun _ => Triple.pure (fun w hw => hw))

/-! ## what a promotion leaves behind -/

theorem append_right_inj {s t t' : String} (h : s ++ t = s ++ t') : t = t' := by
  have h' := congrArg String.toList h
  rw [String.toList_append, String.toList_append, List.append_cancel_left_eq] at h'
  exact String.toList_inj.mp h'

theorem syncTokenKey_inj {z z' : String} (h : syncTokenKey z = syncTokenKey z') : z = z' :=
  append_right_inj h

theorem syncTokenKey_ne_enumConfigHashKey (zone : String) :
    syncTokenKey zone ≠ enumConfigHashKey := by
  intro h
  have h' := keyHead_syncTokenKey zone
  rw [h] at h'
  exact absurd h' (by decide)

theorem ne_of_keyHead {k k' : String} {c c' : Char} (h : keyHead k = some c)
    (h' : keyHead k' = some c') (hne : c ≠ c') : k ≠ k' := by
  intro hk
  rw [hk, h'] at h
  exact hne (Option.some.inj h).symm

theorem take_pendingZoneTokenKey (hash zone : String) :
    (pendingZoneTokenKey hash zone).toList.take 9 = "pending_s".toList := by
  unfold pendingZoneTokenKey
  rw [String.append_assoc, String.append_assoc, String.toList_append,
    List.take_append_of_le_length (by decide)]
  decide

theorem pendingZoneTokenKey_ne_of_take {hash zone key : String}
    (h : key.toList.take 9 ≠ "pending_s".toList) : pendingZoneTokenKey hash zone ≠ key := by
  intro hk
  rw [← hk, take_pendingZoneTokenKey] at h
  exact h rfl

variable {cs : List (LibraryState × String)}

theorem keyHead_promotion_delete {hash key : String}
    (h : key ∈ (promotionTransition hash cs).metadataDeletes) : keyHead key = some 'p' := by
  rcases List.mem_append.mp h with h | h
  · obtain ⟨c, -, rfl⟩ := List.mem_map.mp h
    exact keyHead_pendingZoneTokenKey _ _
  · rw [List.mem_singleton.mp h]
    decide

theorem mem_promotion_update {hash : String} {u : String × String}
    (h : u ∈ (promotionTransition hash cs).metadataUpdates) :
    (∃ c ∈ cs, u = (c.1.syncTokenKey, c.2)) ∨ u = (enumConfigHashKey, hash) ∨
      keyHead u.1 = some 'l' := by
  rcases List.mem_append.mp h with h | h
  · obtain ⟨c, hc, rfl⟩ := List.mem_map.mp h
    exact .inl ⟨c, hc, rfl⟩
  · simp only [List.mem_cons, List.not_mem_nil, or_false] at h
    rcases h with rfl | rfl | rfl
    · exact .inr (.inl rfl)
    · exact .inr (.inr (by decide))
    · exact .inr (.inr (by decide))

theorem promotion_hash (before : Rows) (hash : String) (cs : List (LibraryState × String)) :
    before.transition (promotionTransition hash cs) enumConfigHashKey = some hash := by
  rw [Rows.transition, deletes_of_not_mem]
  · refine updates_of_mem (List.mem_append_right _ List.mem_cons_self) (fun u hu hk => ?_) _
    rcases mem_promotion_update hu with ⟨c, -, rfl⟩ | rfl | hl
    · exact absurd hk (syncTokenKey_ne_enumConfigHashKey _)
    · rfl
    · rw [hk] at hl
      exact absurd hl (by decide)
  · intro h
    exact absurd (keyHead_promotion_delete h) (by decide)

theorem promotion_token {before : Rows} {hash : String}
    (hcs : ∀ c ∈ cs, before (pendingZoneTokenKey hash c.1.zoneName) = some c.2)
    {c : LibraryState × String} (hc : c ∈ cs) :
    before.transition (promotionTransition hash cs) c.1.syncTokenKey = some c.2 := by
  have hhead := keyHead_syncTokenKey c.1.zoneName
  rw [Rows.transition, deletes_of_not_mem]
  · refine updates_of_mem (List.mem_append_left _ (List.mem_map.mpr ⟨c, hc, rfl⟩))
      (fun u hu hk => ?_) _
    rcases mem_promotion_update hu with ⟨c', hc', rfl⟩ | rfl | hl
    · have hzone : c'.1.zoneName = c.1.zoneName := syncTokenKey_inj hk
      have htoken := hcs c' hc'
      rw [hzone, hcs c hc] at htoken
      exact (Option.some.inj htoken).symm
    · exact absurd hk.symm (syncTokenKey_ne_enumConfigHashKey _)
    · exact absurd hk (ne_of_keyHead hl hhead (by decide))
  · intro h
    exact ne_of_keyHead (keyHead_promotion_delete h) hhead (by decide) rfl

theorem promotion_candidate {before : Rows} {hash : String} {c : LibraryState × String}
    (hc : c ∈ cs) :
    before.transition (promotionTransition hash cs) (pendingZoneTokenKey hash c.1.zoneName) =
      none :=
  deletes_of_mem (List.mem_append_left _ (List.mem_map.mpr ⟨c, hc, rfl⟩)) _

theorem promotion_other (before : Rows) {hash zone : String} (h : ∀ c ∈ cs, c.1.zoneName ≠ zone) :
    before.transition (promotionTransition hash cs) (syncTokenKey zone) =
      before (syncTokenKey zone) := by
  have hhead := keyHead_syncTokenKey zone
  refine transition_of_not_mem (fun u hu => ?_) (fun hd => ?_)
  · rcases mem_promotion_update hu with ⟨c, hc, rfl⟩ | rfl | hl
    · intro hk
      exact h c hc (syncTokenKey_inj hk)
    · exact (syncTokenKey_ne_enumConfigHashKey zone).symm
    · exact ne_of_keyHead hl hhead (by decide)
  · exact ne_of_keyHead (keyHead_promotion_delete hd) hhead (by decide) rfl

/-- The hash and the tokens of the reconciliation were replaced together: each
active library's token is what its candidate was before. -/
structure ReplacedTogether (inp : CycleInput) (before after : Rows) : Prop where
  hash : after enumConfigHashKey = some inp.config.enumConfigHash
  tokens : ∀ lib ∈ inp.active, ∃ token, nonBlank (some token) = some token ∧
    before (pendingZoneTokenKey inp.config.enumConfigHash lib.zoneName) = some token ∧
    after lib.syncTokenKey = some token ∧
    after (pendingZoneTokenKey inp.config.enumConfigHash lib.zoneName) = none
  others : ∀ zone, (∀ lib ∈ inp.active, lib.zoneName ≠ zone) →
    after (syncTokenKey zone) = before (syncTokenKey zone)

theorem Promoted.replacedTogether {r₀ after : Rows} (h : Promoted inp r₀ after) :
    ∃ before, SameActive r₀ before ∧ ReplacedTogether inp before after := by
  obtain ⟨before, cs, hsame, hlibs, hcand, hafter⟩ := h
  have hrow {key : String} {c : Char} (hk : keyHead key = some c) (hc : c ≠ 'c')
      (hp : key ≠ pendingDownloadConfigHashKey) :
      after key = before.transition (promotionTransition inp.config.enumConfigHash cs) key :=
    hafter key (ne_of_keyHead hk (by decide) hc) hp
  have hactive {zone : String} := hrow (keyHead_syncTokenKey zone) (by decide)
    (ne_of_keyHead (keyHead_syncTokenKey zone) (by decide : keyHead _ = some 'p') (by decide))
  refine ⟨before, hsame, ?_, fun lib hlib => ?_, fun zone hzone => ?_⟩
  · rw [hafter _ (by decide) (by decide), promotion_hash]
  · rw [← hlibs] at hlib
    obtain ⟨c, hc, rfl⟩ := List.mem_map.mp hlib
    have hpend : pendingZoneTokenKey inp.config.enumConfigHash c.1.zoneName ≠
        pendingDownloadConfigHashKey := pendingZoneTokenKey_ne_of_take (by decide)
    refine ⟨c.2, (hcand c hc).1, (hcand c hc).2, ?_, ?_⟩
    · exact hactive.trans (promotion_token (fun c hc => (hcand c hc).2) hc)
    · rw [hrow (keyHead_pendingZoneTokenKey _ _) (by decide) hpend, promotion_candidate hc]
  · rw [hactive, promotion_other before (fun c hc => ?_)]
    exact hzone c.1 (hlibs ▸ List.mem_map_of_mem hc)

/-! ## runs of cycles -/

/-- Cycles one after the other, each in whatever state the one before left, also
when it halted. -/
def runCycles (cycles : List (CycleInput × Env)) (w : World) : World :=
  cycles.foldl (fun w c => (runCycle c.1 c.2 w).2) w

theorem runCycles_append (cs cs' : List (CycleInput × Env)) (w : World) :
    runCycles (cs ++ cs') w = runCycles cs' (runCycles cs w) := List.foldl_append

theorem runCycle_rows (env : Env) {w : World} (hstored : w.rows enumConfigHashKey = some stored)
    (hne : stored ≠ inp.config.enumConfigHash) :
    SameActive w.rows (runCycle inp env w).2.rows ∨
      Promoted inp w.rows (runCycle inp env w).2.rows := by
  have h := runCycle_sameOrPromoted env hstored hne w (SameActive.refl w.rows)
  cases hx : runCycle inp env w with
  | mk r w' =>
      rw [hx] at h
      cases r with
      | ok a => exact h
      | error e => exact h

/-- **The old checkpoint state survives until one transition replaces it.**  From
rows whose active hash is `stored`, any cycles under other hashes, with any store
call failing and the process stopping at any of them, leave the active hash and
every active token as they were; unless one of the cycles promoted its
reconciliation, and then the rows before it still had the old active state and
its one transition replaced the hash and the token of every active library. -/
theorem runCycles_keep_active_state (w : World) (stored : String)
    (cycles : List (CycleInput × Env)) (hstored : w.rows enumConfigHashKey = some stored)
    (hchanged : ∀ c ∈ cycles, stored ≠ c.1.config.enumConfigHash) :
    SameActive w.rows (runCycles cycles w).rows ∨
    ∃ pre c post, cycles = pre ++ c :: post ∧ SameActive w.rows (runCycles pre w).rows ∧
      Promoted c.1 w.rows (runCycles (pre ++ [c]) w).rows ∧
      ∃ before, SameActive w.rows before ∧
        ReplacedTogether c.1 before (runCycles (pre ++ [c]) w).rows := by
  induction cycles using List.reverseRecOn with
  | nil => exact .inl (SameActive.refl _)
  | append_singleton cs c ih =>
      have hcs : ∀ d ∈ cs, stored ≠ d.1.config.enumConfigHash :=
        fun d hd => hchanged d (List.mem_append_left _ hd)
      rcases ih hcs with hsame | ⟨pre, d, post, hsplit, hrest⟩
      · have hc : stored ≠ c.1.config.enumConfigHash :=
          hchanged c (List.mem_append_right _ List.mem_cons_self)
        have hstored' : (runCycles cs w).rows enumConfigHashKey = some stored := by
          rw [hsame _ (.inl rfl), hstored]
        have hlast : (runCycles (cs ++ [c]) w).rows =
            (runCycle c.1 c.2 (runCycles cs w)).2.rows := by
          rw [runCycles_append]
          rfl
        rcases runCycle_rows c.2 hstored' hc with h | h
        · exact .inl (hlast ▸ hsame.trans h)
        · have hprom : Promoted c.1 w.rows (runCycles (cs ++ [c]) w).rows := by
            rw [hlast]
            obtain ⟨before, candidates, hb, hother⟩ := h
            exact ⟨before, candidates, hsame.trans hb, hother⟩
          exact .inr ⟨cs, c, [], rfl, hsame, hprom, hprom.replacedTogether⟩
      · exact .inr ⟨pre, d, post ++ [c], by rw [hsplit]; simp, hrest⟩

/-- A drifted hash with nothing in the way: the cycle promotes, and the token of its
library moves with the hash. -/
theorem runCycles_promote :
    let cycle : CycleInput :=
      { config := ⟨false, false, true, "new", "d", "l"⟩,
        libraries := [⟨"PrimarySync", ["All"], false⟩], hasStateDb := true, shutdown := none }
    let w : World :=
      ⟨fun key =>
        if key = "enum_config_hash" then some "old"
        else if key = "sync_token:PrimarySync" then some "t0" else none, 0, []⟩
    let after := (runCycles [(cycle, Env.clean)] w).rows
    after "enum_config_hash" = some "new" ∧ after "sync_token:PrimarySync" = some "t" ∧
      (SameActive w.rows after ∨
      ∃ pre c post, [(cycle, Env.clean)] = pre ++ c :: post ∧
        SameActive w.rows (runCycles pre w).rows ∧
        Promoted c.1 w.rows (runCycles (pre ++ [c]) w).rows ∧
        ∃ before, SameActive w.rows before ∧
          ReplacedTogether c.1 before (runCycles (pre ++ [c]) w).rows) := by
  intro cycle w after
  refine ⟨by decide +kernel, by decide +kernel, ?_⟩
  exact runCycles_keep_active_state w "old" [(cycle, Env.clean)] rfl
    (fun c hc => by rw [List.mem_singleton.mp hc]; decide)

end Kei.SyncCycle
