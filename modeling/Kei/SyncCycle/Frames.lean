import Kei.Lib.Delimited
import Kei.SyncCycle.Lineage

/-!
# Kei.SyncCycle.Frames

What no run of cycles does: a dry run decides nothing, no cycle touches the
checkpoint of a zone that it does not work on, and none makes a checkpoint up.
-/

namespace Kei.SyncCycle

open Store
open Prog

variable {env : Env} {inp : CycleInput} {facts : CycleFacts} {lib : LibraryState}
  {position : Nat} {st : LoopState}

/-- A cycle of the primary library. -/
def primaryCycle (dryRun : Bool) : CycleInput :=
  ⟨⟨dryRun, false, true, "new", "d", "l"⟩, [⟨"PrimarySync", ["All"], false⟩], true, none⟩

/-! ## dry runs -/

/-- The rows that a dry run writes. -/
def IsReportKey (key : String) : Prop :=
  key = lastCheckpointStatusKey ∨ key = lastRecoveryActionKey ∨
    key = lastFullEnumerationReasonKey ∨ ∃ hash zone, key = inventoryAnchorKey hash zone

/-- Since `w` no other row has changed, and nothing but download runs has happened. -/
def DrySince (w : World) (r : Rows) (l : List Event) : Prop :=
  (∀ key, ¬IsReportKey key → r key = w.rows key) ∧
    ∃ runs, l = w.log ++ runs ∧ ∀ e ∈ runs, ∃ position zone hash source stale result,
      e = .download position zone hash source stale result

variable {w : World}

theorem drySince_ignores {key : String} (h : IsReportKey key) : Ignores (DrySince w) key :=
  fun _ _ _ hr hdry => ⟨fun k hk =>
    (hr k (fun hkey => hk (hkey ▸ h))).symm.trans (hdry.1 k hk), hdry.2⟩

theorem drySince_keepsRuns : KeepsRuns (DrySince w) inp position lib := by
  rintro r l source result ⟨hrows, runs, rfl, hruns⟩
  refine ⟨hrows, runs ++ [_], List.append_assoc _ _ _, fun e he => ?_⟩
  rcases List.mem_append.mp he with he | he
  · exact hruns e he
  · exact ⟨_, _, _, _, _, _, List.mem_singleton.mp he⟩

theorem runLibrary_dryRun (hdry : inp.config.dryRun = true) :
    Keeps (On (DrySince w)) (runLibrary inp env facts position lib st) := by
  refine Keeps.bind readPendingZoneToken_keeps (fun _ => ?_)
  refine Keeps.bind chooseSyncMode_keeps (fun _ => ?_)
  refine Keeps.bind (persistFullEnumerationReason_keeps
    (drySince_ignores (.inr (.inr (.inl rfl))))) (fun _ => ?_)
  refine Keeps.bind (reconcilePaths_triple.weaken_post (fun _ _ h => h.1)) (fun st => ?_)
  refine Keeps.bind (downloadPhotosWithSync_keeps drySince_keepsRuns) (fun _ => ?_)
  refine Keeps.bind (bridgeInventory_keeps drySince_keepsRuns) (fun p => ?_)
  obtain ⟨result, basis⟩ := p
  refine Keeps.bind (updateInventoryAnchorForCycle_keeps
    (fun hash zone => drySince_ignores (.inr (.inr (.inr ⟨hash, zone, rfl⟩))))) (fun _ => ?_)
  refine finishLibrary_keeps ?_
  cases hd : checkpointDecision inp facts lib result basis (inp.isCancelled (2 * position + 1)) with
  | advance token b => exact absurd hd (checkpointDecision_dryRun hdry)
  | preserve reason recovery =>
      exact (storePreserve_keeps (drySince_ignores (.inl rfl))
        (drySince_ignores (.inr (.inl rfl)))).weaken_post (fun _ _ h => h.1)

/-- A dry run checks no hash, so it has nothing to promote. -/
theorem runCycle_dryRun (hdry : inp.config.dryRun = true) :
    Keeps (On (DrySince w)) (runCycle inp env) := by
  have henum : checkEnumConfigHash inp env = pure .unchanged := by
    rw [checkEnumConfigHash, hdry]
    rfl
  have hdownload : checkDownloadConfigHash inp env = pure none := by
    rw [checkDownloadConfigHash, hdry]
    rfl
  unfold runCycle
  rw [henum, hdownload]
  exact Keeps.bind (x := runLibraries inp env (cycleFacts inp .unchanged none) 0 inp.active _)
    (runLibraries_each (fun _ _ _ _ => runLibrary_dryRun hdry) 0 _) (fun _ => Keeps.pure _)

/-- **A dry run decides nothing**: dry runs one after the other, whatever fails and
wherever they stop, leave every checkpoint, candidate and config hash as it was, and
neither store a checkpoint nor promote a reconciliation. -/
theorem runCycles_dryRun (w : World) (cycles : List (CycleInput × Env))
    (hdry : ∀ c ∈ cycles, c.1.config.dryRun = true) :
    DrySince w (runCycles cycles w).rows (runCycles cycles w).log := by
  induction cycles using List.reverseRecOn with
  | nil =>
      exact ⟨fun _ _ => rfl, [], (List.append_nil _).symm, fun e he => absurd he List.not_mem_nil⟩
  | append_singleton cs c ih =>
      rw [runCycles_append]
      exact (runCycle_dryRun (hdry c (List.mem_append_right _ List.mem_cons_self))).snd
        (ih (fun d hd => hdry d (List.mem_append_left _ hd)))

/-- A dry run under another hash than the stored one. -/
theorem runCycles_dryRun_drifted :
    let w : World := ⟨World.empty.rows.set enumConfigHashKey "old", 0, []⟩
    let w' := runCycles [(primaryCycle true, Env.clean)] w
    DrySince w w'.rows w'.log := runCycles_dryRun _ _ (by simp [primaryCycle])

/-! ## zones that are not worked on -/

/-- The zone's active token. -/
def TokenIs (zone : String) (held : Option String) (r : Rows) (_ : List Event) : Prop :=
  r (syncTokenKey zone) = held

variable {zone : String} {held : Option String}

theorem tokenIs_ignores {key : String} (h : syncTokenKey zone ≠ key) :
    Ignores (TokenIs zone held) key := fun _ _ _ hr ht => (hr _ h).symm.trans ht

theorem tokenIs_ignoresNotes : IgnoresNotes (TokenIs zone held) :=
  fun _ hk => tokenIs_ignores (ne_note hk zone "").1

theorem tokenIs_delete {pre : String} (hpre : keyHead pre = some 'p') (r : Rows) (l : List Event)
    (h : TokenIs zone held r l) : TokenIs zone held (r.deleteByPrefix pre) l :=
  (deleteByPrefix_of_not r (likePrefix_isActiveKey hpre (.inr ⟨zone, rfl⟩))).trans h

theorem runCycle_other (hz : ∀ lib ∈ inp.active, lib.zoneName ≠ zone) :
    Keeps (On (TokenIs zone held)) (runCycle inp env) := by
  have hnotes : IgnoresNotes (TokenIs zone held) := tokenIs_ignoresNotes
  refine Keeps.bind (checkEnumConfigHash_keeps
    (tokenIs_ignores (syncTokenKey_ne_enumConfigHashKey zone))
    (tokenIs_ignores (ne_of_keyHead (keyHead_syncTokenKey zone)
      (by decide : keyHead _ = some 'p') (by decide)))
    hnotes.recovery (tokenIs_delete (by decide)) (tokenIs_delete (by decide))) (fun _ => ?_)
  refine Keeps.bind (checkDownloadConfigHash_keeps hnotes (tokenIs_delete (by decide)))
    (fun _ => ?_)
  refine Keeps.bind (runLibraries_each (fun _ lib hlib _ => ?_) 0 _) (fun _ => ?_)
  · exact runLibrary_keeps hnotes (fun _ _ _ _ h => h) (fun _ _ _ _ => storeCheckpoint_keeps
      hnotes.status hnotes.recovery
      (tokenIs_ignores (fun h => hz lib hlib (syncTokenKey_inj h).symm))
      (tokenIs_ignores (syncTokenKey_ne_pending _ _ _)) (fun _ _ _ _ h => h))
  refine Keeps.bind (finishReconciliation_keeps (fun r _ cs h hlibs _ => ?_) (fun _ _ _ _ h => h))
    (fun _ => Keeps.bind (promotePathReconciliation_keeps hnotes.path hnotes.pendingPath)
      (fun _ => Keeps.pure _))
  exact (promotion_other r (fun c hc => hz c.1 (hlibs ▸ List.mem_map_of_mem hc))).trans h

/-- **A checkpoint is lost by no cycle that is not about its zone**, whatever the configs,
whatever fails and wherever the cycles stop. -/
theorem runCycles_other (w : World) (zone : String) (cycles : List (CycleInput × Env))
    (hz : ∀ c ∈ cycles, ∀ lib ∈ c.1.active, lib.zoneName ≠ zone) :
    (runCycles cycles w).rows (syncTokenKey zone) = w.rows (syncTokenKey zone) := by
  induction cycles using List.reverseRecOn with
  | nil => rfl
  | append_singleton cs c ih =>
      rw [runCycles_append]
      exact (runCycle_other (hz c (List.mem_append_right _ List.mem_cons_self))).snd
        (ih (fun d hd => hz d (List.mem_append_left _ hd)))

/-- The primary library is synced, and the token of a shared one stays. -/
theorem runCycles_other_shared :
    (runCycles [(primaryCycle false, Env.clean)]
      ⟨World.empty.rows.set (syncTokenKey "SharedSync-1") "t0", 0, []⟩).rows
        (syncTokenKey "SharedSync-1") = some "t0" :=
  runCycles_other _ _ _ (by decide)

variable {token key : String} {r r' : Rows} {l : List Event}

/-! ## where tokens come from -/

/-- A run of the zone has reported the token. -/
def Reported (l : List Event) (zone token : String) : Prop :=
  ∃ position hash source stale result,
    .download position zone hash source stale (some result) ∈ l ∧ result.syncToken = some token

theorem Reported.append (h : Reported l zone token) (e : Event) :
    Reported (l ++ [e]) zone token := by
  obtain ⟨position, hash, source, stale, result, hmem, htoken⟩ := h
  exact ⟨position, hash, source, stale, result, List.mem_append_left _ hmem, htoken⟩

/-- The row is for a token of the zone, active or a candidate. -/
def HoldsToken (zone key : String) : Prop :=
  key = syncTokenKey zone ∨ ∃ hash, ':' ∉ hash.toList ∧ key = pendingZoneTokenKey hash zone

theorem HoldsToken.zone_eq {zone' : String} (h : HoldsToken zone key) (h' : HoldsToken zone' key) :
    zone = zone' := by
  rcases h with rfl | ⟨hash, hh, rfl⟩ <;> rcases h' with h' | ⟨hash', hh', h'⟩
  · exact syncTokenKey_inj h'
  · exact absurd h' (syncTokenKey_ne_pending _ _ _)
  · exact absurd h'.symm (syncTokenKey_ne_pending _ _ _)
  · have hlists := congrArg String.toList h'
    simp only [pendingZoneTokenKey, String.toList_append, List.append_assoc,
      List.append_cancel_left_eq] at hlists
    exact String.toList_inj.mp (Delimited.word_inj hh hh' hlists).2

theorem HoldsToken.ne (h : HoldsToken zone key) :
    ¬IsNoteKey key ∧ key ≠ enumConfigHashKey ∧ key ≠ pendingEnumConfigHashKey := by
  rcases h with rfl | ⟨hash, -, rfl⟩
  · have hhead := keyHead_syncTokenKey zone
    exact ⟨fun hn => (ne_note hn zone "").1 rfl, ne_of_keyHead hhead rfl (by decide),
      ne_of_keyHead hhead rfl (by decide)⟩
  · exact ⟨fun hn => (ne_note hn zone hash).2 rfl, pendingZoneTokenKey_ne_of_take (by decide),
      pendingZoneTokenKey_ne_of_take (by decide)⟩

/-- Every token was reported by a run of its zone. -/
def Vouched (r : Rows) (l : List Event) : Prop :=
  ∀ zone key token, HoldsToken zone key → r key = some token → Reported l zone token

theorem Vouched.append (h : Vouched r l) (e : Event) : Vouched r (l ++ [e]) :=
  fun zone key token hk hrow => (h zone key token hk hrow).append e

theorem Vouched.change (h : Vouched r l)
    (hr : ∀ k t, r' k = some t → r k = some t ∨ ∀ zone, HoldsToken zone k → Reported l zone t) :
    Vouched r' l :=
  fun zone k t hk hrow => (hr k t hrow).elim (h zone k t hk) (fun hnew => hnew zone hk)

theorem vouched_ignores (h : ∀ zone, ¬HoldsToken zone key) : Ignores Vouched key := by
  refine fun r r' l hr hv => hv.change fun k _ hrow => ?_
  by_cases hk : k = key
  · exact .inr fun zone hz => absurd (hk ▸ hz) (h zone)
  · exact .inl ((hr k hk).trans hrow)

theorem vouched_ignoresNotes : IgnoresNotes Vouched :=
  fun _ hnote => vouched_ignores fun _ hk => hk.ne.1 hnote

theorem vouched_delete {pre : String} (r : Rows) (l : List Event) (h : Vouched r l) :
    Vouched (r.deleteByPrefix pre) l :=
  h.change fun _ _ hrow => .inl ((deleteByPrefix_erased r pre).of_some hrow)

theorem transition_some {t : CheckpointTransition} {k v : String}
    (h : r.transition t k = some v) : r k = some v ∨ (k, v) ∈ t.metadataUpdates := by
  have hupdates (us : List (String × String))
      (h : us.foldl (fun r u => Rows.set r u.1 u.2) r k = some v) :
      r k = some v ∨ (k, v) ∈ us := by
    induction us using List.reverseRecOn with
    | nil => exact .inl h
    | append_singleton us u ih =>
        rw [List.foldl_append] at h
        by_cases hk : k = u.1
        · subst hk
          cases (set_self _ _ _).symm.trans h
          exact .inr (List.mem_append_right _ List.mem_cons_self)
        · exact (ih ((set_of_ne _ hk).symm.trans h)).imp_right (List.mem_append_left _)
  by_cases hd : k ∈ t.metadataDeletes
  · cases (deletes_of_mem hd _).symm.trans h
  · exact hupdates _ ((deletes_of_not_mem hd _).symm.trans h)

/-- The tokens of the rows and that of the result were reported. -/
def Carries (lib : LibraryState) (result : SyncResult) (r : Rows) (l : List Event) : Prop :=
  Vouched r l ∧ ∀ token, result.syncToken = some token → Reported l lib.zoneName token

variable {result : SyncResult} {basis b : CheckpointBasis}

theorem downloadPhotosWithSync_carries {mode : SyncMode} {source : TokenSource} :
    Triple (On Vouched) (downloadPhotosWithSync inp env position lib mode source)
      (fun result => On (Carries lib result)) (On Vouched) := by
  refine downloadPhotosWithSync_triple (fun result _ r l h => ⟨h.append _, fun t ht => ?_⟩)
    (fun r l h => h.append _)
  exact ⟨_, _, _, _, result, List.mem_append_right _ List.mem_cons_self, ht⟩

theorem sourceCheckpointDecision_token {dryRun stale : Bool}
    (h : sourceCheckpointDecision result dryRun stale basis = .advance token b) :
    result.syncToken = some token := by
  unfold sourceCheckpointDecision at h
  repeat' split at h
  all_goals try contradiction
  next htoken _ =>
    cases h
    exact (nonBlank_eq_some htoken).1

/-- The token of a bridged inventory is that of the replay. -/
theorem mergeBridge_token {bridge : SyncResult}
    (h : (mergeBridge inp lib result bridge).1.syncToken = some token) :
    bridge.syncToken = some token := by
  unfold mergeBridge at h
  dsimp only at h
  repeat' split at h
  · contradiction
  · next hadvance => exact (sourceCheckpointDecision_token hadvance).trans h
  · contradiction

theorem bridgeInventory_carries :
    Triple (On (Carries lib result)) (bridgeInventory inp env facts position lib result)
      (fun p => On (Carries lib p.1)) (On Vouched) := by
  refine Triple.ite (fun _ => ?_) (fun _ => Triple.pure fun _ h => h)
  refine Triple.bind (readPriorToken_keeps.weaken_halt fun _ h => h.1) (fun prior => ?_)
  cases nonBlank prior with
  | none => exact Triple.pure fun _ h => h
  | some prior =>
      refine Triple.ite (fun _ => ?_) (fun _ => Triple.pure fun _ h => h)
      exact Triple.bind (downloadPhotosWithSync_carries.strengthen_pre fun _ h => h.1)
        (fun _ => Triple.pure fun _ h => ⟨h.1, fun t ht => h.2 t (mergeBridge_token ht)⟩)

variable {cancelled : Bool}

theorem storeCheckpoint_carries (hhash : ':' ∉ inp.config.enumConfigHash.toList) :
    Keeps (On (Carries lib result)) (storeCheckpoint inp env facts position lib
      (checkpointDecision inp facts lib result basis cancelled) st) := by
  have hstored {t : CheckpointTransition} {e : Event}
      (ht : ∀ r l k v, Carries lib result r l → (k, v) ∈ t.metadataUpdates →
        ∀ zone, HoldsToken zone k → Reported l zone v) :
      Keeps (On (Carries lib result)) (do
        if ← commitCheckpointTransition env t then
          record e
          return st
        else
          return st.storeFailed) :=
    Keeps.bind (write_keeps fun r l h => ⟨h.1.change fun k v hrow =>
        (transition_some hrow).imp_right (ht r l k v h), h.2⟩)
      (fun _ => Keeps.ite (fun _ => Keeps.bind (record_triple fun _ _ h =>
        ⟨h.1.append e, fun t ht => (h.2 t ht).append e⟩) (fun _ => Keeps.pure _))
        (fun _ => Keeps.pure _))
  cases hd : checkpointDecision inp facts lib result basis cancelled with
  | preserve reason recovery =>
      have hnote {key : String} (hk : IsNoteKey key) : Ignores (Carries lib result) key :=
        fun r r' l hr h => ⟨vouched_ignoresNotes key hk r r' l hr h.1, h.2⟩
      exact (storePreserve_keeps (hnote (.inl rfl)) (hnote (.inr (.inl rfl)))).weaken_post
        (fun _ _ h => h.1)
  | advance token b =>
      have htoken : result.syncToken = some token := by
        unfold checkpointDecision at hd
        repeat' split at hd
        · exact sourceCheckpointDecision_token hd
        · contradiction
        · contradiction
      have hown {key : String} (hkey : HoldsToken lib.zoneName key) {r : Rows} {l : List Event}
          (h : Carries lib result r l) (zone : String) (hz : HoldsToken zone key) :
          Reported l zone token := hkey.zone_eq hz ▸ h.2 token htoken
      refine Keeps.ite (fun _ => Keeps.ite (fun _ => ?_) (fun _ => ?_)) (fun _ => Keeps.pure _)
      · refine hstored (t := ⟨[(_, token)], []⟩) fun r l k v h hmem => ?_
        cases List.mem_singleton.mp hmem
        exact hown (.inr ⟨_, hhash, rfl⟩) h
      · refine hstored fun r l k v h hmem => ?_
        rcases List.mem_cons.mp hmem with hmem | hmem
        · cases hmem
          exact hown (.inl rfl) h
        · exact fun zone hz => absurd (isNoteKey_status hmem) hz.ne.1

theorem runLibrary_vouched (hhash : ':' ∉ inp.config.enumConfigHash.toList) :
    Keeps (On Vouched) (runLibrary inp env facts position lib st) := by
  refine Keeps.bind readPendingZoneToken_keeps (fun _ => ?_)
  refine Keeps.bind chooseSyncMode_keeps (fun _ => ?_)
  refine Keeps.bind (persistFullEnumerationReason_keeps vouched_ignoresNotes.reason) (fun _ => ?_)
  refine Keeps.bind (reconcilePaths_triple.weaken_post (fun _ _ h => h.1)) (fun _ => ?_)
  refine Triple.bind downloadPhotosWithSync_carries (fun _ => ?_)
  refine Triple.bind bridgeInventory_carries (fun p => ?_)
  obtain ⟨result, basis⟩ := p
  refine Triple.conseq (Keeps.bind (I := On (Carries lib result))
    (updateInventoryAnchorForCycle_keeps fun hash zone r r' l hr h =>
      ⟨vouched_ignoresNotes.anchor hash zone r r' l hr h.1, h.2⟩)
    (fun _ => finishLibrary_keeps (storeCheckpoint_carries hhash)))
    (fun _ h => h) (fun _ _ h => h.1) (fun _ h => h.1)

theorem runCycle_vouched (hhash : ':' ∉ inp.config.enumConfigHash.toList) :
    Keeps (On Vouched) (runCycle inp env) := by
  have hnotes : IgnoresNotes Vouched := vouched_ignoresNotes
  refine Keeps.bind (checkEnumConfigHash_keeps (vouched_ignores fun _ h => h.ne.2.1 rfl)
    (vouched_ignores fun _ h => h.ne.2.2 rfl) hnotes.recovery vouched_delete vouched_delete)
    (fun _ => ?_)
  refine Keeps.bind (checkDownloadConfigHash_keeps hnotes vouched_delete) (fun _ => ?_)
  refine Keeps.bind (runLibraries_each (fun _ _ _ _ => runLibrary_vouched hhash) 0 _) (fun _ => ?_)
  refine Keeps.bind (finishReconciliation_keeps (fun r l cs h _ hcs => h.change fun k v hrow => ?_)
    (fun _ _ _ _ h => h.append _)) (fun _ => Keeps.bind
    (promotePathReconciliation_keeps hnotes.path hnotes.pendingPath) (fun _ => Keeps.pure _))
  refine (transition_some hrow).imp_right fun hmem zone hz => ?_
  rcases mem_promotion_update hmem with ⟨c, hc, heq⟩ | heq | hhead
  · cases heq
    exact hz.zone_eq (.inl rfl) ▸ h c.1.zoneName _ c.2 (.inr ⟨_, hhash, rfl⟩) (hcs c hc)
  · cases heq
    exact absurd rfl hz.ne.2.1
  · rcases hz with rfl | ⟨hash, -, rfl⟩
    · cases (keyHead_syncTokenKey zone).symm.trans hhead
    · cases (keyHead_pendingZoneTokenKey hash zone).symm.trans hhead

/-- **No checkpoint is made up**: through any cycles, whatever fails and wherever they
stop, the active token of a zone is one that a run of the zone reported.  A config hash is
hexadecimal, so that a candidate's key tells its zone. -/
theorem runCycles_reported (cycles : List (CycleInput × Env))
    (hhash : ∀ c ∈ cycles, ':' ∉ c.1.config.enumConfigHash.toList) (zone token : String)
    (h : (runCycles cycles World.empty).rows (syncTokenKey zone) = some token) :
    Reported (runCycles cycles World.empty).log zone token := by
  have hvouched : Vouched (runCycles cycles World.empty).rows
      (runCycles cycles World.empty).log := by
    clear h
    induction cycles using List.reverseRecOn with
    | nil => exact fun _ _ _ _ h => nomatch h
    | append_singleton cs c ih =>
        rw [runCycles_append]
        exact (runCycle_vouched (hhash c (List.mem_append_right _ List.mem_cons_self))).snd
          (ih fun d hd => hhash d (List.mem_append_left _ hd))
  exact hvouched zone _ token (.inl rfl) h

/-- The token of the first cycle was reported by its provider. -/
theorem runCycles_reported_primary :
    Reported (runCycles [(primaryCycle false, Env.clean)] World.empty).log "PrimarySync" "t" :=
  runCycles_reported _ (by decide) _ _ (by decide +kernel)

end Kei.SyncCycle
