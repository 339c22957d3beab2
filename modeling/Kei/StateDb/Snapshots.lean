import Kei.Lib.LastWriter
import Kei.StateDb.Memberships

/-!
# Kei.StateDb.Snapshots

What an album contains when a snapshot of it completes.

While a generation runs, two cells of an asset follow the history: whether it
is live, and whether the generation has recorded it.  Both are last-writer
cells, and completion keeps what is live and recorded.
-/

namespace Kei.StateDb

variable {db : MembershipDb} {library containerId asset : String} {generation : Nat}

/-! ## the history of one asset in one container -/

/-- The generation records the asset. -/
def MembershipOp.adds (library containerId : String) (generation : Nat) (asset : String) :
    MembershipOp → Bool
  | .addAlbumMembershipToSnapshot l c g a _ _ _ =>
      l = library && c = containerId && g = generation && a = asset
  | _ => false

/-- What the adds of the generation and the relation deltas write. -/
def MembershipOp.writesLive (library containerId : String) (generation : Nat) (asset : String) :
    MembershipOp → Option Bool
  | .addAlbumMembershipToSnapshot l c g a _ _ _ =>
      if l = library ∧ c = containerId ∧ g = generation ∧ a = asset then some true else none
  | .upsertAlbumMembershipDelta l c a _ _ _ =>
      if l = library ∧ c = containerId ∧ a = asset then some true else none
  | .markAlbumMembershipDeleted l c a _ =>
      if l = library ∧ c = containerId ∧ a = asset then some false else none
  | _ => none

def MembershipOp.writesRecorded (library containerId : String) (generation : Nat)
    (asset : String) (op : MembershipOp) : Option Bool :=
  if op.adds library containerId generation asset then some true else none

/-- The operation belongs to another snapshot of the container. -/
def MembershipOp.overlaps (library containerId : String) (generation : Nat) :
    MembershipOp → Bool
  | .startAlbumMembershipSnapshot l c _ _ => l = library && c = containerId
  | .addAlbumMembershipToSnapshot l c g _ _ _ _ =>
      l = library && c = containerId && g ≠ generation
  | .completeAlbumMembershipSnapshot l c g _ => l = library && c = containerId && g ≠ generation
  | _ => false

/-- The generation recorded the row of the asset last. -/
def MembershipDb.isRecorded (library containerId : String) (generation : Nat) (asset : String)
    (db : MembershipDb) : Bool :=
  (db.assetAlbumMemberships.get? (library, asset, containerId)).any
    (fun m => m.generation = generation)

/-! ## snapshots stay -/

/-- The generation was started. -/
def MembershipDb.hasSnapshot (library containerId : String) (generation : Nat)
    (db : MembershipDb) : Bool :=
  (db.albumMembershipSnapshots.get? (library, containerId, generation)).isSome

theorem hasSnapshot_of_isRunning (h : db.isRunning library containerId generation = true) :
    db.hasSnapshot library containerId generation = true := by
  obtain ⟨s, hs, -⟩ := (Option.any_eq_true _ _).mp h
  exact Option.isSome_iff_exists.mpr ⟨s, hs⟩

/-- What one operation does to a snapshot: it stays as it is, or it stops. -/
theorem snapshot_apply (op : MembershipOp) {s : AlbumSnapshot}
    (hs : db.albumMembershipSnapshots.get? (library, containerId, generation) = some s) :
    ∃ s', (op.apply db).albumMembershipSnapshots.get? (library, containerId, generation) = some s' ∧
      (s' = s ∨ s'.status ≠ .running) := by
  cases op with
  | upsertAlbumContainer | markAlbumContainerDeleted | upsertAlbumMembershipDelta
  | markAlbumMembershipDeleted => exact ⟨s, hs, .inl rfl⟩
  | startAlbumMembershipSnapshot l c hash now =>
      refine ⟨s, ?_, .inl rfl⟩
      unfold MembershipOp.apply MembershipOp.run StateDb.startAlbumMembershipSnapshot
      rw [Table.get?_insert]
      split
      · next hkey =>
          have hfresh := nextGeneration_fresh l c db s ((Table.get?_key hs).trans hkey.symm)
          exact absurd (List.mem_map_of_mem (Table.mem_of_get? hs)) hfresh
      · exact hs
  | addAlbumMembershipToSnapshot l c g a master source now =>
      refine ⟨s, ?_, .inl rfl⟩
      cases hrun : db.isRunning l c g <;>
        simpa [MembershipOp.apply, MembershipOp.run, addAlbumMembershipToSnapshot, hrun] using hs
  | completeAlbumMembershipSnapshot l c g now =>
      cases hrun : db.isRunning l c g with
      | false =>
          refine ⟨s, ?_, .inl rfl⟩
          simpa [MembershipOp.apply, MembershipOp.run, completeAlbumMembershipSnapshot,
            hrun] using hs
      | true =>
          simp only [MembershipOp.apply, MembershipOp.run, StateDb.completeAlbumMembershipSnapshot,
            hrun, if_true, Table.get?_update, hs, Option.map_some, Option.some.injEq,
            exists_eq_left']
          split
          · exact .inr (fun h => SnapshotStatus.noConfusion h)
          · exact .inl rfl
  | invalidateAlbumMembershipSnapshot l c now =>
      simp only [MembershipOp.apply, MembershipOp.run, StateDb.invalidateAlbumMembershipSnapshot,
        Table.get?_update, hs, Option.map_some, Option.some.injEq, exists_eq_left']
      split
      · exact .inr (fun h => SnapshotStatus.noConfusion h)
      · exact .inl rfl

theorem hasSnapshot_apply (op : MembershipOp)
    (h : db.hasSnapshot library containerId generation = true) :
    (op.apply db).hasSnapshot library containerId generation = true := by
  obtain ⟨s, hs⟩ := Option.isSome_iff_exists.mp h
  obtain ⟨s', hs', -⟩ := snapshot_apply op hs
  exact Option.isSome_iff_exists.mpr ⟨s', hs'⟩

theorem isRunning_of_apply (op : MembershipOp)
    (h : db.hasSnapshot library containerId generation = true)
    (hrunning : (op.apply db).isRunning library containerId generation = true) :
    db.isRunning library containerId generation = true := by
  obtain ⟨s, hs⟩ := Option.isSome_iff_exists.mp h
  obtain ⟨s', hs', hsame⟩ := snapshot_apply op hs
  rw [MembershipDb.isRunning, hs', Option.any_some] at hrunning
  rw [MembershipDb.isRunning, hs, Option.any_some]
  cases hsame with
  | inl heq => rwa [heq] at hrunning
  | inr hstopped => exact absurd (of_decide_eq_true hrunning) hstopped

variable {ops : List MembershipOp}

theorem isRunning_of_run (h : db.hasSnapshot library containerId generation = true)
    (hrunning : (runMembershipOps db ops).isRunning library containerId generation = true) :
    db.isRunning library containerId generation = true := by
  induction ops generalizing db with
  | nil => exact hrunning
  | cons op ops ih => exact isRunning_of_apply op h (ih (hasSnapshot_apply op h) hrunning)

/-! ## the two cells -/

/-- What the operations still to come leave to a running generation. -/
structure Running (library containerId : String) (generation : Nat) (db : MembershipDb)
    (ops : List MembershipOp) : Prop where
  hasSnapshot : db.hasSnapshot library containerId generation = true
  isRunning : (runMembershipOps db ops).isRunning library containerId generation = true
  serial : ∀ op ∈ ops, op.overlaps library containerId generation = false
  ne_zero : generation ≠ 0

theorem Running.now (h : Running library containerId generation db ops) :
    db.isRunning library containerId generation = true := isRunning_of_run h.hasSnapshot h.isRunning

variable {op : MembershipOp}

theorem Running.next (h : Running library containerId generation db (op :: ops)) :
    Running library containerId generation (op.apply db) ops where
  hasSnapshot := hasSnapshot_apply op h.hasSnapshot
  isRunning := h.isRunning
  serial op' hop' := h.serial op' (List.mem_cons_of_mem _ hop')
  ne_zero := h.ne_zero

variable {db' : MembershipDb}

theorem cells_congr (h : db'.assetAlbumMemberships.get? (library, asset, containerId) =
      db.assetAlbumMemberships.get? (library, asset, containerId)) :
    db'.isLive library containerId asset = db.isLive library containerId asset ∧
      db'.isRecorded library containerId generation asset =
        db.isRecorded library containerId generation asset := by
  rw [MembershipDb.isLive, MembershipDb.isRecorded, h]
  exact ⟨rfl, rfl⟩

variable {now : Int}

theorem completed_not_running : ¬ ((MembershipOp.completeAlbumMembershipSnapshot
    library containerId generation now).apply db).isRunning library containerId
      generation = true := by
  intro hnext
  cases hrun : db.isRunning library containerId generation with
  | false =>
      simp [MembershipOp.apply, MembershipOp.run, completeAlbumMembershipSnapshot, hrun] at hnext
  | true =>
      simp only [MembershipOp.apply, MembershipOp.run, completeAlbumMembershipSnapshot, hrun,
        if_true] at hnext
      rw [MembershipDb.isRunning, Table.get?_update] at hnext
      cases hget : db.albumMembershipSnapshots.get? (library, containerId, generation) with
      | none => simp [hget] at hnext
      | some s =>
          have hs := Table.get?_key hget
          simp only [AlbumSnapshot.key, Prod.mk.injEq] at hs
          by_cases hstatus : s.status = .running <;>
            simp [hget, AlbumSnapshot.ofContainer, hs, hstatus] at hnext

theorem cells_apply (h : Running library containerId generation db (op :: ops)) :
    (op.apply db).isLive library containerId asset =
        (op.writesLive library containerId generation asset).getD
          (db.isLive library containerId asset) ∧
      (op.apply db).isRecorded library containerId generation asset =
        (op.writesRecorded library containerId generation asset).getD
          (db.isRecorded library containerId generation asset) := by
  have hserial := h.serial op (List.mem_cons_self ..)
  cases op with
  | upsertAlbumContainer | markAlbumContainerDeleted | startAlbumMembershipSnapshot
  | invalidateAlbumMembershipSnapshot => exact cells_congr rfl
  | addAlbumMembershipToSnapshot l c g a master source now =>
      by_cases hkey : l = library ∧ c = containerId ∧ a = asset
      · obtain ⟨rfl, rfl, rfl⟩ := hkey
        have hg : g = generation := by simpa [MembershipOp.overlaps] using hserial
        subst hg
        cases hget : db.assetAlbumMemberships.get? (l, a, c) <;>
          simp [MembershipOp.apply, MembershipOp.run, addAlbumMembershipToSnapshot, h.now,
            MembershipOp.writesLive, MembershipOp.writesRecorded, MembershipOp.adds,
            MembershipDb.isLive, MembershipDb.isRecorded, Table.get?_upsert, hget]
      · have hnone : ¬ (l = library ∧ c = containerId ∧ g = generation ∧ a = asset) :=
          fun hall => hkey ⟨hall.1, hall.2.1, hall.2.2.2⟩
        have hrow : ¬ (l = library ∧ a = asset ∧ c = containerId) :=
          fun hall => hkey ⟨hall.1, hall.2.2, hall.2.1⟩
        have hadds : MembershipOp.adds library containerId generation asset
            (.addAlbumMembershipToSnapshot l c g a master source now) = false := by
          simpa [MembershipOp.adds, and_assoc] using hnone
        simp only [MembershipOp.writesLive, MembershipOp.writesRecorded, hadds, hnone,
          Bool.false_eq_true, if_false, Option.getD_none]
        refine cells_congr ?_
        cases hrun : db.isRunning l c g <;>
          simp [MembershipOp.apply, MembershipOp.run, addAlbumMembershipToSnapshot, hrun,
            Table.get?_upsert, hrow]
  | upsertAlbumMembershipDelta l c a master source now =>
      by_cases hkey : l = library ∧ c = containerId ∧ a = asset
      · obtain ⟨rfl, rfl, rfl⟩ := hkey
        cases hget : db.assetAlbumMemberships.get? (l, a, c) <;>
          simp [MembershipOp.apply, MembershipOp.run, upsertAlbumMembershipDelta,
            MembershipOp.writesLive, MembershipOp.writesRecorded, MembershipOp.adds,
            MembershipDb.isLive, MembershipDb.isRecorded, Table.get?_upsert, hget]
        exact Ne.symm h.ne_zero
      · have hrow : ¬ (l = library ∧ a = asset ∧ c = containerId) :=
          fun hall => hkey ⟨hall.1, hall.2.2, hall.2.1⟩
        simp only [MembershipOp.writesLive, MembershipOp.writesRecorded, MembershipOp.adds, hkey,
          if_false, Option.getD_none]
        refine cells_congr ?_
        simp [MembershipOp.apply, MembershipOp.run, upsertAlbumMembershipDelta, Table.get?_upsert,
          hrow]
  | markAlbumMembershipDeleted l c a now =>
      by_cases hkey : l = library ∧ c = containerId ∧ a = asset
      · obtain ⟨rfl, rfl, rfl⟩ := hkey
        cases hget : db.assetAlbumMemberships.get? (l, a, c) <;>
          simp [MembershipOp.apply, MembershipOp.run, MembershipOp.writesLive,
            MembershipOp.writesRecorded, MembershipOp.adds, MembershipDb.isLive,
            MembershipDb.isRecorded, get?_markDeleted, hget]
      · simp only [MembershipOp.writesLive, MembershipOp.writesRecorded, MembershipOp.adds, hkey,
          Bool.false_eq_true, if_false, Option.getD_none]
        refine cells_congr ?_
        simp [MembershipOp.apply, MembershipOp.run, get?_markDeleted, hkey]
  | completeAlbumMembershipSnapshot l c g now =>
      cases hrun : db.isRunning l c g with
      | false =>
          have hsame : (MembershipOp.completeAlbumMembershipSnapshot l c g now).apply db = db := by
            simp [MembershipOp.apply, MembershipOp.run, completeAlbumMembershipSnapshot, hrun]
          rw [hsame]
          exact ⟨rfl, rfl⟩
      | true =>
          refine cells_congr ?_
          simp only [MembershipOp.apply, MembershipOp.run, StateDb.completeAlbumMembershipSnapshot,
            hrun, if_true, Table.get?_update]
          cases hget : db.assetAlbumMemberships.get? (library, asset, containerId) with
          | none => rfl
          | some m =>
              have hm := AlbumMembership.of_get? hget
              -- a completion of this generation would leave nothing running
              have hother : ¬ (library = l ∧ containerId = c) := by
                rintro ⟨rfl, rfl⟩
                have hg : g = generation := by simpa [MembershipOp.overlaps] using hserial
                subst hg
                exact completed_not_running h.next.now
              simp [AlbumMembership.ofContainer, hm, hother]

/-! ## completion -/

theorem running_cells (h : Running library containerId generation db ops) :
    (runMembershipOps db ops).isLive library containerId asset =
        (lastWrite (MembershipOp.writesLive library containerId generation asset) ops).getD
          (db.isLive library containerId asset) ∧
      (runMembershipOps db ops).isRecorded library containerId generation asset =
        (lastWrite (MembershipOp.writesRecorded library containerId generation asset) ops).getD
          (db.isRecorded library containerId generation asset) :=
  ⟨foldl_lastWrite (fun _ _ _ hok => ⟨hok.next, (cells_apply hok).1⟩) h,
    foldl_lastWrite (fun _ _ _ hok => ⟨hok.next, (cells_apply hok).2⟩) h⟩

theorem isLive_complete
    (h : completeAlbumMembershipSnapshot library containerId generation now db = .ok db') :
    db'.isLive library containerId asset =
      (db.isLive library containerId asset &&
        db.isRecorded library containerId generation asset) := by
  unfold completeAlbumMembershipSnapshot at h
  split at h
  · cases h
    rw [MembershipDb.isLive, MembershipDb.isLive, MembershipDb.isRecorded, Table.get?_update]
    cases hget : db.assetAlbumMemberships.get? (library, asset, containerId) with
    | none => rfl
    | some m =>
        have hm := AlbumMembership.of_get? hget
        by_cases hg : m.generation = generation <;> cases hdeleted : m.isDeleted <;>
          simp [AlbumMembership.ofContainer, hm, hg, hdeleted]
  · contradiction

theorem isRunning_of_complete
    (h : completeAlbumMembershipSnapshot library containerId generation now db = .ok db') :
    db.isRunning library containerId generation = true := by
  unfold completeAlbumMembershipSnapshot at h
  split at h
  · next hrunning => exact hrunning
  · contradiction

/-! ## a new generation -/

/-- The generation of a row was started. -/
def Backed (db : MembershipDb) : Prop :=
  ∀ m ∈ db.assetAlbumMemberships.rows,
    m.generation = 0 ∨ db.hasSnapshot m.library m.containerId m.generation = true

theorem backed_apply (op : MembershipOp) (h : Backed db) : Backed (op.apply db) := by
  have hkept : ∀ m : AlbumMembership,
      m.generation = 0 ∨ db.hasSnapshot m.library m.containerId m.generation = true →
      m.generation = 0 ∨ (op.apply db).hasSnapshot m.library m.containerId m.generation = true :=
    fun m hm => hm.imp_right (hasSnapshot_apply op)
  intro m hm
  refine hkept m ?_
  cases op with
  | upsertAlbumContainer => exact h m hm
  | markAlbumContainerDeleted => exact h m hm
  | startAlbumMembershipSnapshot => exact h m hm
  | invalidateAlbumMembershipSnapshot => exact h m hm
  | addAlbumMembershipToSnapshot l c g a master source now =>
      cases hrun : db.isRunning l c g with
      | false =>
          simp only [MembershipOp.apply, MembershipOp.run, addAlbumMembershipToSnapshot, hrun,
            Bool.false_eq_true, if_false] at hm
          exact h m hm
      | true =>
          simp only [MembershipOp.apply, MembershipOp.run, addAlbumMembershipToSnapshot, hrun,
            if_true] at hm
          rcases Table.mem_upsert hm with ⟨rfl, -⟩ | ⟨r, -, hr, rfl⟩ | ⟨hold, -⟩
          · exact .inr (hasSnapshot_of_isRunning hrun)
          · simp only [AlbumMembership.key, Prod.mk.injEq] at hr
            obtain ⟨rfl, rfl, rfl⟩ := hr
            exact .inr (hasSnapshot_of_isRunning hrun)
          · exact h m hold
  | upsertAlbumMembershipDelta l c a master source now =>
      rcases Table.mem_upsert hm with ⟨rfl, -⟩ | ⟨r, hold, -, rfl⟩ | ⟨hold, -⟩
      · exact .inl rfl
      · exact h r hold
      · exact h m hold
  | markAlbumMembershipDeleted l c a now =>
      simp only [MembershipOp.apply, MembershipOp.run, StateDb.markAlbumMembershipDeleted] at hm
      obtain ⟨r, hold, heq⟩ := Table.mem_update.mp hm
      split at heq <;> subst heq <;> exact h r hold
  | completeAlbumMembershipSnapshot l c g now =>
      cases hrun : db.isRunning l c g with
      | false =>
          simp only [MembershipOp.apply, MembershipOp.run, completeAlbumMembershipSnapshot, hrun,
            Bool.false_eq_true, if_false] at hm
          exact h m hm
      | true =>
          simp only [MembershipOp.apply, MembershipOp.run, completeAlbumMembershipSnapshot, hrun,
            if_true] at hm
          obtain ⟨r, hold, heq⟩ := Table.mem_update.mp hm
          split at heq <;> subst heq <;> exact h r hold

theorem backed_empty : Backed .empty := fun _ hm => absurd hm List.not_mem_nil

theorem backed_run (ops : List MembershipOp) (h : Backed db) :
    Backed (runMembershipOps db ops) := by
  induction ops generalizing db with
  | nil => exact h
  | cons op ops ih => exact ih (backed_apply op h)

theorem isRecorded_start {hash : Option String} (h : Backed db)
    (hstart : startAlbumMembershipSnapshot library containerId hash now db = (generation, db')) :
    db'.isRecorded library containerId generation asset = false := by
  obtain ⟨rfl, rfl⟩ := hstart
  by_contra hrecorded
  obtain ⟨m, hm, hg⟩ := (Option.any_eq_true _ _).mp (Bool.not_eq_false _ ▸ hrecorded)
  have hg := of_decide_eq_true hg
  obtain ⟨hrow, hkey⟩ := Table.get?_eq_some.mp hm
  obtain ⟨rfl, rfl, rfl⟩ := hkey
  rcases h m hrow with hzero | hsnapshot
  · omega
  · obtain ⟨s, hs⟩ := Option.isSome_iff_exists.mp hsnapshot
    have hfresh := nextGeneration_fresh m.library m.containerId db s (hg ▸ Table.get?_key hs)
    exact hfresh (List.mem_map_of_mem (Table.mem_of_get? hs))

/-! ## the album after a snapshot -/

theorem lastWrite_recorded (ops : List MembershipOp) :
    (lastWrite (MembershipOp.writesRecorded library containerId generation asset) ops).getD false =
      ops.any (MembershipOp.adds library containerId generation asset) := by
  have hconst : ∀ op : MembershipOp,
      op.writesRecorded library containerId generation asset = none ∨
        op.writesRecorded library containerId generation asset = some true := by
    intro op
    rw [MembershipOp.writesRecorded]
    split
    · exact .inr rfl
    · exact .inl rfl
  induction ops with
  | nil => rfl
  | cons op ops ih =>
      rw [lastWrite, List.any_cons, ← ih, MembershipOp.writesRecorded]
      rcases lastWrite_of_constant hconst ops with hnone | hsome
      · rw [hnone]
        cases op.adds library containerId generation asset <;> rfl
      · rw [hsome]
        exact (Bool.or_true _).symm

theorem writesLive_of_adds (h : op.adds library containerId generation asset = true) :
    op.writesLive library containerId generation asset ≠ none := by
  cases op with
  | addAlbumMembershipToSnapshot l c g a master source now =>
      have hkey : l = library ∧ c = containerId ∧ g = generation ∧ a = asset := by
        simpa [MembershipOp.adds, and_assoc] using h
      rw [MembershipOp.writesLive, if_pos hkey]
      exact Option.some_ne_none true
  | _ => contradiction

theorem isLive_snapshot {hash : Option String} {startedAt completedAt : Int}
    {before db db' : MembershipDb} (hbacked : Backed before)
    (hstart : startAlbumMembershipSnapshot library containerId hash startedAt before =
      (generation, db)) (hserial : ∀ op ∈ ops, op.overlaps library containerId generation = false)
    (hcomplete : completeAlbumMembershipSnapshot library containerId generation completedAt
      (runMembershipOps db ops) = .ok db') :
    db'.isLive library containerId asset =
      ((lastWrite (MembershipOp.writesLive library containerId generation asset) ops).getD false &&
        ops.any (MembershipOp.adds library containerId generation asset)) := by
  have hnew : db.isRecorded library containerId generation asset = false :=
    isRecorded_start hbacked hstart
  have hrunning : Running library containerId generation db ops := by
    refine ⟨?_, isRunning_of_complete hcomplete, hserial, ?_⟩ <;>
      simp only [startAlbumMembershipSnapshot, Prod.mk.injEq] at hstart <;>
      obtain ⟨rfl, rfl⟩ := hstart
    · rw [MembershipDb.hasSnapshot, Table.get?_insert, if_pos rfl]
      rfl
    · exact Nat.succ_ne_zero _
  rw [isLive_complete hcomplete, (running_cells hrunning).1, (running_cells hrunning).2, hnew,
    lastWrite_recorded]
  -- without any write the generation has not recorded the asset
  cases hwrite : lastWrite (MembershipOp.writesLive library containerId generation asset) ops with
  | some live => rfl
  | none =>
      have hnone : ops.any (MembershipOp.adds library containerId generation asset) = false := by
        rw [List.any_eq_false]
        exact fun op hop hadds => writesLive_of_adds hadds (lastWrite_eq_none.mp hwrite op hop)
      rw [hnone, Bool.and_false, Bool.and_false]

/-- **The last writer wins.**  After a snapshot an asset is in the album as the adds of the
generation and the relation deltas since its start left it.  Nothing is said of an asset that
only a delta put in. -/
theorem last_writer_wins (before ops : List MembershipOp) (library containerId asset : String)
    (generation : Nat) (hash : Option String) (startedAt completedAt : Int) (db db' : MembershipDb)
    (hstart : startAlbumMembershipSnapshot library containerId hash startedAt
      (runMembershipOps .empty before) = (generation, db))
    (hserial : ∀ op ∈ ops, op.overlaps library containerId generation = false)
    (hcomplete : completeAlbumMembershipSnapshot library containerId generation completedAt
      (runMembershipOps db ops) = .ok db')
    (hrecorded : ops.any (MembershipOp.adds library containerId generation asset) = true ∨
      lastWrite (MembershipOp.writesLive library containerId generation asset) ops ≠ some true) :
    db'.isLive library containerId asset =
      (lastWrite (MembershipOp.writesLive library containerId generation asset) ops).getD
        false := by
  have hbacked : Backed (runMembershipOps .empty before) := backed_run before backed_empty
  rw [isLive_snapshot hbacked hstart hserial hcomplete]
  cases hrecorded with
  | inl hadded => rw [hadded, Bool.and_true]
  | inr hdead =>
      have hfalse : (lastWrite (MembershipOp.writesLive library containerId generation asset)
          ops).getD false = false := by
        cases hwrite : lastWrite (MembershipOp.writesLive library containerId generation asset)
            ops with
        | none => rfl
        | some live =>
            cases live with
            | false => rfl
            | true => exact absurd hwrite hdead
      rw [hfalse, Bool.false_and]

/-! ## one album -/

def started (before : List MembershipOp) : Nat × MembershipDb :=
  startAlbumMembershipSnapshot "PrimarySync" "album" none 1 (runMembershipOps .empty before)

def completed (before ops : List MembershipOp) : MembershipDb :=
  (MembershipOp.completeAlbumMembershipSnapshot "PrimarySync" "album" 1 9).apply
    (runMembershipOps (started before).2 ops)

def recordedA : MembershipOp :=
  .addAlbumMembershipToSnapshot "PrimarySync" "album" 1 "a" none "icloud" 2

def relatedA : MembershipOp :=
  .upsertAlbumMembershipDelta "PrimarySync" "album" "a" none "icloud" 3

def unrelatedA : MembershipOp := .markAlbumMembershipDeleted "PrimarySync" "album" "a" 4

/-- The asset leaves the album after it was recorded, and comes back. -/
theorem last_writer_wins_back :
    (completed [] [recordedA, unrelatedA, relatedA]).isLive "PrimarySync" "album" "a" = true :=
  (last_writer_wins [] [recordedA, unrelatedA, relatedA] "PrimarySync" "album" "a" 1 none 1 9
    (started []).2 (completed [] [recordedA, unrelatedA, relatedA]) rfl (by decide) rfl
    (.inl (by decide))).trans (by decide)

/-- A relation that is added before or during the snapshot, and that the snapshot does not
record, is not live after it. -/
theorem related_not_live :
    (completeAlbumMembershipSnapshot "PrimarySync" "album" 1 9
        (runMembershipOps (started [relatedA]).2 []) = .ok (completed [relatedA] []) ∧
      lastWrite (MembershipOp.writesLive "PrimarySync" "album" 1 "a") [relatedA] = some true ∧
      (completed [relatedA] []).isLive "PrimarySync" "album" "a" = false) ∧
    completeAlbumMembershipSnapshot "PrimarySync" "album" 1 9
        (runMembershipOps (started []).2 [relatedA]) = .ok (completed [] [relatedA]) ∧
      lastWrite (MembershipOp.writesLive "PrimarySync" "album" 1 "a") [relatedA] = some true ∧
      (completed [] [relatedA]).isLive "PrimarySync" "album" "a" = false := by
  refine ⟨⟨rfl, ?_, ?_⟩, rfl, ?_, ?_⟩
  · show lastWrite (MembershipOp.writesLive "PrimarySync" "album" 1 "a") [relatedA] = some true
    decide
  · show (completed [relatedA] []).isLive "PrimarySync" "album" "a" = false
    decide
  · show lastWrite (MembershipOp.writesLive "PrimarySync" "album" 1 "a") [relatedA] = some true
    decide
  · show (completed [] [relatedA]).isLive "PrimarySync" "album" "a" = false
    decide

end Kei.StateDb
