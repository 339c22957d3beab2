import Kei.SyncCycle.Advance

/-!
# Kei.SyncCycle.Lineage

Under which enumeration config a zone's token was obtained, and which
inventories were completed since the chain of runs that led to it started.

The history of the cycles is folded into a ledger: each run's token gets a
lineage from the token it started from, a completed inventory starts a new
one, storing a checkpoint files the lineage under its key, and a promotion
moves the candidates' lineages to the active keys.  The cycle itself never
looks at any of this; the invariant that ties the ledger to the rows is what
makes an active token safe to continue from.
-/

namespace Kei.SyncCycle

open Str
open Store
open Prog

variable {env : Env} {inp : CycleInput} {facts : CycleFacts} {lib : LibraryState}
  {position : Nat}

/-! ## the ledger -/

/-- Where a token comes from. -/
structure Lineage where
  /-- The hash of the cycle whose run returned it. -/
  obtained : String
  /-- The hashes under which an inventory was completed since its chain started. -/
  inventories : List String
  deriving DecidableEq

structure Ledger where
  /-- The lineage of the token last stored under a key. -/
  held : String → Option Lineage
  /-- The lineage of the token of the last run. -/
  running : Option Lineage

/-- A run that took stock of the whole zone: it was a full enumeration and its
result may move the checkpoint. -/
def completesInventory (stale : Bool) (result : SyncResult) : Bool :=
  result.fullEnumerationRan &&
    (sourceCheckpointDecision result false stale .completeInventory).isAdvance

/-- A completed inventory starts a new chain. -/
def inventoryLineage (hash : String) (stale : Bool) (result : SyncResult) : Option Lineage :=
  if completesInventory stale result then some ⟨hash, [hash]⟩ else none

/-- The lineage of a run's token. -/
def Ledger.run (g : Ledger) (zone hash : String) (stale : Bool) (result : SyncResult) :
    TokenSource → Option Lineage
  | .full => inventoryLineage hash stale result
  | .active =>
      if result.fullEnumerationRan then
        inventoryLineage hash stale result
      else
        (g.held (syncTokenKey zone)).map (fun l => ⟨hash, l.inventories⟩)
  | .candidate =>
      if result.fullEnumerationRan then
        inventoryLineage hash stale result
      else
        (g.held (pendingZoneTokenKey hash zone)).map (fun l => ⟨hash, l.inventories⟩)
  | .bridge =>
      -- the replay continues the old chain, which now has the inventory before it
      if result.fullEnumerationRan then
        none
      else
        g.running.map (fun l =>
          ⟨hash, ((g.held (syncTokenKey zone)).elim [] (·.inventories)) ++ l.inventories⟩)

def Ledger.step (g : Ledger) : Event → Ledger
  | .download _ zone hash source stale result =>
      { g with running := result.bind (fun r => g.run zone hash stale r source) }
  | .stored _ _ _ key _ => { g with held := Function.update g.held key g.running }
  | .promoted _ keys =>
      { g with held := keys.foldl (fun held k => Function.update held k.2 (g.held k.1)) g.held }

/-- The ledger of a history. -/
def ledger (l : List Event) : Ledger := l.foldl Ledger.step ⟨fun _ => none, none⟩

theorem ledger_append (l : List Event) (e : Event) : ledger (l ++ [e]) = (ledger l).step e := by
  simp [ledger, List.foldl_append]

/-! ## what a use of a token needs -/

/-- A token obtained under `hash`, on a chain with an inventory under `hash`. -/
def Under (hash : String) (lineage : Option Lineage) : Prop :=
  ∃ l, lineage = some l ∧ l.obtained = hash ∧ hash ∈ l.inventories

instance (hash : String) (lineage : Option Lineage) : Decidable (Under hash lineage) :=
  decidable_of_iff (lineage.any (fun l => l.obtained = hash ∧ hash ∈ l.inventories) = true) (by
    cases lineage with
    | none => simp [Under]
    | some l => simp [Under])

/-- The last event completed the inventory of the library at `position`. -/
def JustInventoried (position : Nat) (zone hash : String) (stale : Bool) (before : List Event) :
    Prop :=
  ∃ earlier source result, before = earlier ++ [.download position zone hash source stale
    (some result)] ∧ source ≠ .bridge ∧ completesInventory stale result = true

/-- What a run may rely on: the active token it continues from was obtained under the
cycle's hash; the one it replays over an inventory comes right after that inventory. -/
def SafeUse (position : Nat) (zone hash : String) (stale : Bool) (before : List Event) :
    TokenSource → Prop
  | .active => Under hash ((ledger before).held (syncTokenKey zone))
  | .bridge => JustInventoried position zone hash stale before
  | .full | .candidate => True

/-- Every use of the zone's active token is safe. -/
def SafeUses (zone : String) (l : List Event) : Prop :=
  ∀ before position hash source stale result after,
    l = before ++ .download position zone hash source stale result :: after →
    SafeUse position zone hash stale before source

/-- No promotion leaves the zone behind with an active token of an older hash. -/
def PromotionsCover (zone : String) (l : List Event) : Prop :=
  ∀ before hash keys after, l = before ++ .promoted hash keys :: after →
    (∃ k ∈ keys, k.2 = syncTokenKey zone) ∨ (ledger before).held (syncTokenKey zone) = none

theorem append_cons_eq_concat {α : Type} {before after l : List α} {x e : α}
    (h : l ++ [e] = before ++ x :: after) :
    (after = [] ∧ before = l ∧ x = e) ∨ ∃ after', l = before ++ x :: after' := by
  rcases List.eq_nil_or_concat after with rfl | ⟨after', y, rfl⟩
  · obtain ⟨hl, hx⟩ := List.append_inj' h rfl
    exact .inl ⟨rfl, hl.symm, (List.singleton_inj.mp hx).symm⟩
  · rw [List.concat_eq_append, ← List.cons_append, ← List.append_assoc] at h
    exact .inr ⟨after', (List.append_inj' h rfl).1⟩

variable {l : List Event}

theorem SafeUses.append {zone : String} {e : Event} (h : SafeUses zone l)
    (he : ∀ position hash source stale result,
      e = .download position zone hash source stale result →
      SafeUse position zone hash stale l source) : SafeUses zone (l ++ [e]) := by
  intro before position hash source stale result after hsplit
  rcases append_cons_eq_concat hsplit with ⟨-, rfl, hx⟩ | ⟨after', hl⟩
  · exact he position hash source stale result hx.symm
  · exact h before position hash source stale result after' hl

theorem PromotionsCover.left {zone : String} {l more : List Event}
    (h : PromotionsCover zone (l ++ more)) : PromotionsCover zone l := by
  intro before hash keys after hl
  refine h before hash keys (after ++ more) ?_
  rw [hl, List.append_assoc, List.cons_append]

/-! ## the invariant -/

/-- Between cycles: the active token belongs to the active hash, and the candidate of
the staged hash to that hash. -/
structure Sound (zone : String) (r : Rows) (l : List Event) : Prop where
  uses : SafeUses zone l
  active : ∀ hash, r enumConfigHashKey = some hash → r (syncTokenKey zone) ≠ none →
    Under hash ((ledger l).held (syncTokenKey zone))
  candidate : ∀ hash, r pendingEnumConfigHashKey = some hash →
    r (pendingZoneTokenKey hash zone) ≠ none →
    Under hash ((ledger l).held (pendingZoneTokenKey hash zone))

/-- In a cycle, after its checks: without a reconciliation the active token belongs to
the cycle's hash; in one, the cycle's hash is staged. -/
structure InCycle (inp : CycleInput) (outcome : EnumConfigHashOutcome) (zone : String) (r : Rows)
    (l : List Event) : Prop extends Sound zone r l where
  settled : outcome.mustForceFullSync = false → inp.hasStateDb = true →
    (∀ hash, r enumConfigHashKey = some hash → hash = inp.config.enumConfigHash) ∧
    (r (syncTokenKey zone) ≠ none →
      Under inp.config.enumConfigHash ((ledger l).held (syncTokenKey zone)))
  staged : outcome = .changed → r pendingEnumConfigHashKey = some inp.config.enumConfigHash ∧
    ∃ hash, r enumConfigHashKey = some hash

/-- After a cycle. -/
def CycleEnd (zone : String) (r : Rows) (l : List Event) : Prop :=
  PromotionsCover zone l → Sound zone r l

variable {outcome : EnumConfigHashOutcome} {zone : String}

theorem InCycle.cycleEnd {r : Rows} (h : InCycle inp outcome zone r l) :
    CycleEnd zone r l := fun _ => h.toSound

/-- `r'` has lost some of the rows of `r`. -/
def Erased (r r' : Rows) : Prop := ∀ key, r' key = r key ∨ r' key = none

variable {r r' : Rows}

theorem Erased.of_some (h : Erased r r') {key value : String} (hv : r' key = some value) :
    r key = some value := by
  rcases h key with hk | hk
  · rw [← hk, hv]
  · rw [hk] at hv
    contradiction

theorem Erased.of_ne_none (h : Erased r r') {key : String} (hv : r' key ≠ none) : r key ≠ none := by
  rcases h key with hk | hk
  · rwa [← hk]
  · exact absurd hk hv

theorem Sound.of_erased (h : Sound zone r l) (hr : Erased r r') : Sound zone r' l :=
  ⟨h.uses, fun hash hh ht => h.active hash (hr.of_some hh) (hr.of_ne_none ht),
    fun hash hh ht => h.candidate hash (hr.of_some hh) (hr.of_ne_none ht)⟩

theorem InCycle.of_erased (h : InCycle inp outcome zone r l) (hne : outcome ≠ .changed)
    (hr : Erased r r') : InCycle inp outcome zone r' l := by
  refine ⟨h.toSound.of_erased hr, fun hforce hdb => ?_, fun hc => absurd hc hne⟩
  obtain ⟨hhash, htoken⟩ := h.settled hforce hdb
  exact ⟨fun hash hh => hhash hash (hr.of_some hh), fun ht => htoken (hr.of_ne_none ht)⟩

theorem deleteByPrefix_erased (r : Rows) (pre : String) : Erased r (r.deleteByPrefix pre) := by
  intro key
  unfold Rows.deleteByPrefix
  split
  · exact .inr rfl
  · exact .inl rfl

/-- The rows the invariant is about. -/
def Watched (zone key : String) : Prop :=
  key = enumConfigHashKey ∨ key = pendingEnumConfigHashKey ∨ key = syncTokenKey zone ∨
    ∃ hash, key = pendingZoneTokenKey hash zone

theorem Sound.congr {r r' : Rows} {l : List Event} (h : Sound zone r l)
    (hr : ∀ key, Watched zone key → r' key = r key) : Sound zone r' l := by
  have hhash := hr _ (.inl rfl)
  have hpending := hr _ (.inr (.inl rfl))
  have htoken := hr _ (.inr (.inr (.inl rfl)))
  refine ⟨h.uses, ?_, ?_⟩
  · rw [hhash, htoken]
    exact h.active
  · intro hash hstaged hne
    rw [hpending] at hstaged
    rw [hr _ (.inr (.inr (.inr ⟨hash, rfl⟩)))] at hne
    exact h.candidate hash hstaged hne

theorem InCycle.congr {r r' : Rows} {l : List Event} (h : InCycle inp outcome zone r l)
    (hr : ∀ key, Watched zone key → r' key = r key) : InCycle inp outcome zone r' l := by
  have hhash := hr _ (.inl rfl)
  have hpending := hr _ (.inr (.inl rfl))
  have htoken := hr _ (.inr (.inr (.inl rfl)))
  refine ⟨h.toSound.congr hr, ?_, ?_⟩
  · rw [hhash, htoken]
    exact h.settled
  · rw [hhash, hpending]
    exact h.staged

theorem watched_ne_note {key note : String} (hk : Watched zone key) (hn : IsNoteKey note) :
    key ≠ note := by
  rcases hk with rfl | rfl | rfl | ⟨hash, rfl⟩
  · rcases keyHead_of_isNoteKey hn with h | h | h | h
    all_goals exact ne_of_keyHead (by decide : keyHead _ = some 'e') h (by decide)
  · rcases hn with rfl | rfl | rfl | rfl | rfl | ⟨hash, zone, rfl⟩
    · decide
    · decide
    · decide
    · decide
    · decide
    · exact ne_of_keyHead (by decide : keyHead _ = some 'p')
        (keyHead_inventoryAnchorKey hash zone) (by decide)
  · exact (ne_note hn zone "").1
  · exact (ne_note hn zone hash).2

theorem inCycle_ignoresNotes : IgnoresNotes (InCycle inp outcome zone) :=
  fun _ hn _ _ _ hr h => h.congr (fun k hk => (hr k (watched_ne_note hk hn)).symm)

theorem cycleEnd_ignoresNotes : IgnoresNotes (CycleEnd zone) :=
  fun _ hn _ _ _ hr h =>
    fun hc => (h hc).congr (fun k hk => (hr k (watched_ne_note hk hn)).symm)

/-! ## the checks -/

theorem Sound.cycleEnd {r : Rows} (h : Sound zone r l) : CycleEnd zone r l :=
  fun _ => h

/-- An outcome that trusts neither the active tokens nor the candidates. -/
theorem Sound.untrusted {r : Rows} (h : Sound zone r l) (hforce : outcome.mustForceFullSync = true)
    (hne : outcome ≠ .changed) : InCycle inp outcome zone r l :=
  ⟨h, fun hf => by rw [hforce] at hf; exact Bool.noConfusion hf, fun hc => absurd hc hne⟩

theorem deleteCandidates_candidate (r : Rows) (hash zone : String) :
    r.deleteByPrefix pendingZoneTokenPrefix (pendingZoneTokenKey hash zone) = none := by
  refine deleteByPrefix_of r ?_
  unfold pendingZoneTokenKey
  rw [String.append_assoc, String.append_assoc, String.toList_append]
  exact likePrefix_append _ _

theorem deleteCandidates_hash (r : Rows) :
    r.deleteByPrefix pendingZoneTokenPrefix enumConfigHashKey = r enumConfigHashKey :=
  deleteByPrefix_of_not r (by decide)

theorem staged_inCycle {r : Rows} (h : Sound zone r l)
    (hhash : ∃ hash, r enumConfigHashKey = some hash)
    (hcand : r (pendingZoneTokenKey inp.config.enumConfigHash zone) ≠ none →
      Under inp.config.enumConfigHash
        ((ledger l).held (pendingZoneTokenKey inp.config.enumConfigHash zone))) :
    InCycle inp .changed zone (r.set pendingEnumConfigHashKey inp.config.enumConfigHash) l := by
  have hother {key : String} (hk : key ≠ pendingEnumConfigHashKey) :
      r.set pendingEnumConfigHashKey inp.config.enumConfigHash key = r key := set_of_ne r hk
  have htoken : syncTokenKey zone ≠ pendingEnumConfigHashKey :=
    ne_of_keyHead (keyHead_syncTokenKey zone) (by decide : keyHead _ = some 'p') (by decide)
  refine ⟨⟨h.uses, ?_, ?_⟩, fun hf => Bool.noConfusion hf, fun _ => ⟨set_self _ _ _, ?_⟩⟩
  · rw [hother (by decide), hother htoken]
    exact h.active
  · intro hash hstaged hne
    rw [set_self] at hstaged
    cases hstaged
    rw [hother (pendingZoneTokenKey_ne_of_take (by decide))] at hne
    exact hcand hne
  · rw [hother (by decide)]
    exact hhash

theorem stageReconciliation_lineage :
    Triple (On (fun r l => Sound zone r l ∧ ∃ hash, r enumConfigHashKey = some hash))
      (stageReconciliation env inp.config.enumConfigHash)
      (fun o => On (InCycle inp o zone)) (On (CycleEnd zone)) := by
  have hstage {I : Rows → List Event → Prop} (hstart : ∀ r l, I r l → Sound zone r l)
      (hset : ∀ r l, I r l →
        InCycle inp .changed zone (r.set pendingEnumConfigHashKey inp.config.enumConfigHash) l) :
      Triple (On I) (stagePending env inp.config.enumConfigHash)
        (fun o => On (InCycle inp o zone)) (On (CycleEnd zone)) := by
    refine Triple.bind
      ((write_triple hset).weaken_halt (fun w hw => (hstart w.rows w.log hw).cycleEnd))
      (fun ok => ?_)
    cases ok with
    | true => exact Triple.pure (fun w hw => hw)
    | false =>
        exact Triple.pure (fun w hw => (hstart w.rows w.log hw).untrusted rfl (by decide))
  refine Triple.bind (getMetadata_triple.weaken_halt (fun w hw => hw.1.cycleEnd))
    (fun pending => ?_)
  cases pending with
  | none => exact Triple.pure (fun w hw => hw.1.1.untrusted rfl (by decide))
  | some pending =>
      refine Triple.ite (fun hne => ?_) (fun heq => ?_)
      · -- another reconciliation is abandoned: no candidate is left
        have hdelete : Triple _ (write env _) _ _ := write_triple
          (f := fun r => r.deleteByPrefix pendingZoneTokenPrefix)
          (I := fun r l => (Sound zone r l ∧ ∃ hash, r enumConfigHashKey = some hash) ∧
            ∀ x, some pending = some x → x = r pendingEnumConfigHashKey)
          (J := fun r l => (Sound zone r l ∧ ∃ hash, r enumConfigHashKey = some hash) ∧
            ∀ hash, r (pendingZoneTokenKey hash zone) = none)
          (fun r l hr => ⟨⟨hr.1.1.of_erased (deleteByPrefix_erased r _), by
            rw [deleteCandidates_hash]
            exact hr.1.2⟩, fun hash => deleteCandidates_candidate r hash zone⟩)
        refine Triple.bind (hdelete.weaken_halt (fun w hw => hw.1.1.cycleEnd)) (fun ok => ?_)
        cases ok with
        | false => exact Triple.pure (fun w hw => hw.1.1.untrusted rfl (by decide))
        | true =>
            rw [if_pos rfl]
            refine Triple.ite (fun h => absurd h (by decide)) (fun _ => hstage ?_ ?_)
            · exact fun r l hr => hr.1.1
            · exact fun r l hr => staged_inCycle hr.1.1 hr.1.2 (fun hcand => absurd (hr.2 _) hcand)
      · refine hstage ?_ ?_
        · exact fun r l hr => hr.1.1
        intro r l hr
        have hpending : r pendingEnumConfigHashKey = some inp.config.enumConfigHash := by
          rw [← hr.2 pending rfl]
          exact Decidable.not_not.mp heq
        exact staged_inCycle hr.1.1 hr.1.2 (hr.1.1.candidate _ hpending)

/-- A zone has no active token where no hash is stored. -/
def StartsClean (zone : String) (r : Rows) : Prop :=
  r enumConfigHashKey = none → r (syncTokenKey zone) = none

/-- The enumeration check.  An initial hash is only written where the zone has no
active token. -/
theorem checkAndPersistEnumConfigHash_lineage :
    Triple (On (fun r l => Sound zone r l ∧ StartsClean zone r))
      (checkAndPersistEnumConfigHash env inp.config.enumConfigHash)
      (fun o => On (InCycle inp o zone)) (On (CycleEnd zone)) := by
  refine Triple.bind (getMetadata_triple.weaken_halt (fun w hw => hw.1.cycleEnd)) (fun stored => ?_)
  rcases stored with _ | _ | stored
  · exact Triple.pure (fun w hw => hw.1.1.untrusted rfl (by decide))
  · -- no hash yet
    have hfresh {r : Rows} {l : List Event} (h : Sound zone r l)
        (htoken : r (syncTokenKey zone) = none)
        (hhash : ∀ hash, r enumConfigHashKey = some hash → hash = inp.config.enumConfigHash) :
        InCycle inp .initial zone r l :=
      ⟨h, fun _ _ => ⟨hhash, fun hne => absurd htoken hne⟩, fun hc => by contradiction⟩
    have hwrite : Triple _ (write env _) _ _ := write_triple
      (f := fun r => r.set enumConfigHashKey inp.config.enumConfigHash)
      (I := fun r l => (Sound zone r l ∧ StartsClean zone r) ∧
        ∀ x, some none = some x → x = r enumConfigHashKey)
      (J := InCycle inp .initial zone) (fun r l hr => ?_)
    · refine Triple.bind (hwrite.weaken_halt (fun w hw => hw.1.1.cycleEnd))
        (fun ok => Triple.pure (fun w hw => ?_))
      cases ok with
      | true => exact hw
      | false =>
          have hnone : w.rows enumConfigHashKey = none := (hw.2 none rfl).symm
          exact hfresh hw.1.1 (hw.1.2 hnone) (fun hash hh => by rw [hnone] at hh; contradiction)
    · have htoken : r (syncTokenKey zone) = none := hr.1.2 (hr.2 none rfl).symm
      have hkey : syncTokenKey zone ≠ enumConfigHashKey := syncTokenKey_ne_enumConfigHashKey zone
      have htoken' : r.set enumConfigHashKey inp.config.enumConfigHash
        (syncTokenKey zone) = none := by
        rw [set_of_ne r hkey, htoken]
      refine hfresh ⟨hr.1.1.uses, fun _ _ hne => absurd htoken' hne, ?_⟩ htoken'
        (fun hash hh => ?_)
      · intro hash hstaged hne
        rw [set_of_ne r (by decide)] at hstaged
        rw [set_of_ne r (pendingZoneTokenKey_ne_of_take (by decide))] at hne
        exact hr.1.1.candidate hash hstaged hne
      · rw [set_self] at hh
        exact (Option.some.inj hh).symm
  · refine Triple.ite (fun heq => ?_) (fun _ => ?_)
    · -- the active hash is the cycle's own
      subst heq
      have hdelete {pre : String} :
          Triple (On (InCycle inp .unchanged zone)) (deleteMetadataByPrefix env pre)
            (fun _ => On (InCycle inp .unchanged zone)) (On (CycleEnd zone)) :=
        (write_keeps
        (fun r l h => h.of_erased (by decide) (deleteByPrefix_erased r pre))).weaken_halt
        (fun w hw => hw.cycleEnd)
      refine Triple.bind (hdelete.strengthen_pre (fun w hw => ?_))
        (fun _ => Triple.bind hdelete (fun _ => Triple.pure (fun w hw => hw)))
      have hstored := hw.2 (some inp.config.enumConfigHash) rfl
      refine ⟨hw.1.1, fun _ _ => ⟨fun hash hh => ?_, ?_⟩, fun hc => by contradiction⟩
      · rw [← hstored] at hh
        exact (Option.some.inj hh).symm
      · exact hw.1.1.active _ hstored.symm
    · exact stageReconciliation_lineage.strengthen_pre
        (fun w hw => ⟨hw.1.1, stored, (hw.2 (some stored) rfl).symm⟩)

theorem keeps_cycleEnd {α : Type} {x : Cycle α} (h : Keeps (On (InCycle inp outcome zone)) x) :
    Triple (On (InCycle inp outcome zone)) x (fun _ => On (InCycle inp outcome zone))
      (On (CycleEnd zone)) :=
  h.weaken_halt (fun _ hw => hw.cycleEnd)

theorem checkEnumConfigHash_lineage (hdry : inp.config.dryRun = true → inp.hasStateDb = false) :
    Triple (On (fun r l => Sound zone r l ∧ StartsClean zone r))
      (checkEnumConfigHash inp env) (fun o => On (InCycle inp o zone)) (On (CycleEnd zone)) := by
  refine Triple.ite (fun _ => ?_) (fun hno => Triple.pure (fun w hw => ?_))
  · refine Triple.bind checkAndPersistEnumConfigHash_lineage (fun o => ?_)
    refine Triple.ite (fun _ => ?_) (fun _ => Triple.pure (fun w hw => hw))
    exact Triple.bind (keeps_cycleEnd (setMetadata_keeps inCycle_ignoresNotes.recovery))
      (fun _ => Triple.pure (fun w hw => hw))
  · have hdb : inp.hasStateDb = false := by
      cases hd : inp.config.dryRun with
      | true => exact hdry hd
      | false => simpa [hd] using hno
    refine ⟨hw.1, fun _ h => ?_, fun hc => by contradiction⟩
    rw [hdb] at h
    exact Bool.noConfusion h

/-- Dropping a reverted path reconciliation leaves the staged hash alone. -/
theorem deletePendingPath_inCycle (r : Rows) (l : List Event)
    (h : InCycle inp outcome zone r l) :
    InCycle inp outcome zone (r.deleteByPrefix pendingDownloadConfigHashKey) l := by
  have herased := deleteByPrefix_erased r pendingDownloadConfigHashKey
  have hhash : r.deleteByPrefix pendingDownloadConfigHashKey enumConfigHashKey =
      r enumConfigHashKey := deleteByPrefix_of_not r (by decide)
  have hpending : r.deleteByPrefix pendingDownloadConfigHashKey pendingEnumConfigHashKey =
      r pendingEnumConfigHashKey := deleteByPrefix_of_not r (by decide)
  refine ⟨h.toSound.of_erased herased, fun hforce hdb => ?_, ?_⟩
  · obtain ⟨hh, ht⟩ := h.settled hforce hdb
    exact ⟨fun hash hv => hh hash (herased.of_some hv), fun hv => ht (herased.of_ne_none hv)⟩
  · rw [hhash, hpending]
    exact h.staged

end Kei.SyncCycle
