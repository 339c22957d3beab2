import Kei.Download.Finalize

/-!
# Kei.Download.Marked

Metadata writes that failed, and the markers that say so.

A row is marked when its metadata has to be written again.  The steps of a pass
keep every downloaded row of a failed metadata write marked exactly if each of
them is honest.
-/

namespace Kei.Download

open StateDb Sql

variable {now : Int}

/-! ## what the store operations leave -/

/-- The statements of a success state: the row, the revision, and its progress. -/
def PendingStateWrite.statementCount (write : PendingStateWrite) (s : StateTables) : Nat :=
  if s.recordsLess write.library write.assetId metadataCaptureRevision then 3 else 2

/-- The failure comes after `count` statements. -/
def Spares (fuse : Option Nat) (count : Nat) : Prop := ∀ n, fuse = some n → count ≤ n

theorem recordRevision_rows (library assetId : String) (revision updatedAt : Int)
    (fuse : Option Nat) (s : StateTables) :
    ((recordMetadataCaptureRevision library assetId revision updatedAt).run fuse
      s).2.2.db = s.db := by
  rcases fuse with - | n
  · exact (recordRevision_keeps library assetId revision updatedAt s).1
  · rw [run_recordRevision_burnt]
    split
    · rfl
    · rfl
    · exact (recordRevision_keeps library assetId revision updatedAt s).1

section write

variable {write : PendingStateWrite} {mark : Option Nat} {s : StateTables}

theorem isVersion_write {r : AssetRow} :
    r.isVersion write.library write.assetId write.versionSize.asStr = true ↔ r.key = write.key := by
  simp [AssetRow.isVersion, PendingStateWrite.key]

/-- What a success state makes of a row. -/
def PendingStateWrite.written (write : PendingStateWrite) (mark : Option Nat) (r : AssetRow) :
    AssetRow :=
  if r.key = write.key ∧ mark ≠ some 0 then
    r.downloadedAs write.downloadPath write.localChecksum write.downloadChecksum
      write.markCaptureRepair
  else r

theorem written_key (r : AssetRow) : (write.written mark r).key = r.key := by
  unfold PendingStateWrite.written
  split <;> rfl

theorem written_marker (r : AssetRow) :
    (write.written mark r).metadataWriteFailedAt = r.metadataWriteFailedAt := by
  unfold PendingStateWrite.written
  split <;> rfl

theorem statements_rows :
    (inConnection (write.statements now) mark s).2.db.assets.rows =
      s.db.assets.rows.map (write.written mark) := by
  have hdownload : (s.download write.library write.assetId write.versionSize.asStr
      write.downloadPath write.localChecksum write.downloadChecksum write.markCaptureRepair
      now).db.assets.rows = s.db.assets.rows.map (fun r =>
        if r.isVersion write.library write.assetId write.versionSize.asStr then
          r.downloadedAs write.downloadPath write.localChecksum write.downloadChecksum
            write.markCaptureRepair
        else r) := rfl
  have hmap (hmark : mark ≠ some 0) : s.db.assets.rows.map (write.written mark) =
      s.db.assets.rows.map (fun r =>
        if r.isVersion write.library write.assetId write.versionSize.asStr then
          r.downloadedAs write.downloadPath write.localChecksum write.downloadChecksum
            write.markCaptureRepair
        else r) := by
    refine List.map_congr_left (fun r _ => ?_)
    simp [PendingStateWrite.written, hmark, isVersion_write]
  rcases mark with - | - | n
  · rw [hmap (by simp), ← hdownload]
    simp only [inConnection, PendingStateWrite.statements, markDownloaded, run_execute_none]
    split
    · rw [run_refuse]
    · rw [recordRevision_rows]
  · have hsame : s.db.assets.rows.map (write.written (some 0)) = s.db.assets.rows := by
      refine (List.map_congr_left (fun r _ => ?_)).trans (List.map_id _)
      simp [PendingStateWrite.written]
    rw [hsame]
    rfl
  · rw [hmap (by simp), ← hdownload]
    simp only [inConnection, PendingStateWrite.statements, markDownloaded, run_execute_succ]
    split
    · rw [run_refuse]
    · rw [recordRevision_rows]

/-- A success state is written if its row is there and none of its statements fails. -/
theorem lands_iff (hrow : ∃ r ∈ s.db.assets.rows, r.key = write.key) :
    write.Lands now mark s = true ↔ Spares mark (write.statementCount s) := by
  have hcount : s.db.assets.count
      (AssetRow.isVersion write.library write.assetId write.versionSize.asStr) ≠ 0 := by
    obtain ⟨r, hr, hkey⟩ := hrow
    exact fun hzero => count_eq_zero.mp hzero ⟨r, hr, isVersion_write.mpr hkey⟩
  have hless : (s.download write.library write.assetId write.versionSize.asStr write.downloadPath
      write.localChecksum write.downloadChecksum write.markCaptureRepair now).recordsLess
        write.library write.assetId metadataCaptureRevision =
      s.recordsLess write.library write.assetId metadataCaptureRevision := rfl
  unfold PendingStateWrite.Lands PendingStateWrite.statements PendingStateWrite.statementCount
    Spares inConnection markDownloaded recordMetadataCaptureRevision
  rcases mark with - | - | - | - | n
  all_goals
    cases hrecords : s.recordsLess write.library write.assetId metadataCaptureRevision <;>
      simp [hcount, hless, hrecords, Except.isOk, Except.toBool]

end write

/-! ## marked rows -/

/-- A file of the row was finished without its metadata. -/
def MetadataFailed (steps : List StateStep) (key : Key) : Prop :=
  ∃ write mark marker, StateStep.finalize write false mark marker ∈ steps ∧ write.key = key

/-- A downloaded row of such a file has its marker. -/
def Marked (steps : List StateStep) (s : StateTables) : Prop :=
  ∀ r ∈ s.db.assets.rows, MetadataFailed steps r.key → r.status = .downloaded →
    r.metadataWriteFailedAt.isSome = true

/-- The rows are marked after every step. -/
def StaysMarked (now : Int) (s : StateTables) (steps : List StateStep) : Prop :=
  ∀ n, Marked (steps.take n) (StateStep.runAll now s (steps.take n))

/-- The step, made in `s` after the steps `before`, leaves no row without its marker. -/
def StateStep.Honest (before : List StateStep) (s : StateTables) : StateStep → Prop
  | .finalize write exifOk mark marker =>
      exifOk = false ∨ MetadataFailed before write.key →
        ∀ r ∈ s.db.assets.rows, r.key = write.key →
          r.metadataWriteFailedAt.isSome = true ∨
          -- the success state and the marker are written at once
          (exifOk = false ∧ Spares mark (write.statementCount s) ∧ marker ≠ some 0) ∨
          (mark = some 0 ∧ r.status ≠ .downloaded)
  | .retry write mark =>
      MetadataFailed before write.key →
        ∀ r ∈ s.db.assets.rows, r.key = write.key →
          r.metadataWriteFailedAt.isSome = true ∨ mark = some 0
  | .fail .. => True

/-- Every step is honest where it is made. -/
def HonestSteps (now : Int) (s : StateTables) (steps : List StateStep) : Prop :=
  ∀ before step after, steps = before ++ step :: after →
    step.Honest before (StateStep.runAll now s before)

variable {step : StateStep}

theorem metadataFailed_snoc {before : List StateStep} {key : Key} :
    MetadataFailed (before ++ [step]) key ↔
      MetadataFailed before key ∨
        ∃ write mark marker, step = .finalize write false mark marker ∧ write.key = key := by
  unfold MetadataFailed
  simp only [List.mem_append, List.mem_singleton]
  constructor
  · rintro ⟨write, mark, marker, hbefore | hstep, hkey⟩
    · exact .inl ⟨write, mark, marker, hbefore, hkey⟩
    · exact .inr ⟨write, mark, marker, hstep.symm, hkey⟩
  · rintro (⟨write, mark, marker, hbefore, hkey⟩ | ⟨write, mark, marker, hstep, hkey⟩)
    · exact ⟨write, mark, marker, .inl hbefore, hkey⟩
    · exact ⟨write, mark, marker, .inr hstep.symm, hkey⟩

/-! ### one step -/

section step

variable {before : List StateStep} {s : StateTables}

theorem marked_rows {steps : List StateStep} {s' : StateTables} {g : AssetRow → AssetRow}
    {key : Key} (hmarked : Marked before s)
    (hrows : s'.db.assets.rows = s.db.assets.rows.map g) (hkey : ∀ r, (g r).key = r.key)
    (hother : ∀ r, r.key ≠ key → g r = r)
    (hfailed : ∀ k, k ≠ key → MetadataFailed steps k → MetadataFailed before k) :
    Marked steps s' ↔ (MetadataFailed steps key → ∀ r ∈ s.db.assets.rows, r.key = key →
      (g r).status = .downloaded → (g r).metadataWriteFailedAt.isSome = true) := by
  unfold Marked
  rw [hrows]
  simp only [List.forall_mem_map, hkey]
  constructor
  · intro h hfailed r hr hrkey
    exact h r hr (hrkey ▸ hfailed)
  · intro h r hr hrfailed hstatus
    by_cases hrkey : r.key = key
    · exact h (hrkey ▸ hrfailed) r hr hrkey hstatus
    · rw [hother r hrkey] at hstatus ⊢
      exact hmarked r hr (hfailed r.key hrkey hrfailed) hstatus

/-- What a finished download makes of a row. -/
def finalizedRow (write : PendingStateWrite) (mark marker : Option Nat) (marks : Bool) (now : Int)
    (r : AssetRow) : AssetRow :=
  if marks && marker ≠ some 0 && r.key = write.key then
    { write.written mark r with metadataWriteFailedAt := some now }
  else write.written mark r

theorem finalize_rows {write : PendingStateWrite} {exifOk : Bool} {mark marker : Option Nat} :
    ((StateStep.finalize write exifOk mark marker).run now s).db.assets.rows =
      s.db.assets.rows.map
        (finalizedRow write mark marker (write.Lands now mark s && !exifOk) now) := by
  unfold StateStep.run
  dsimp only
  cases hmarks : write.Lands now mark s && !exifOk with
  | false =>
      rw [if_neg Bool.false_ne_true, statements_rows]
      rfl
  | true =>
      rw [if_pos rfl]
      rcases eq_or_ne marker (some 0) with rfl | hmarker
      · simp only [inConnection, recordMetadataWriteFailure, run_last_burnt]
        show (inConnection (write.statements now) mark s).2.db.assets.rows = _
        rw [statements_rows]
        rfl
      · simp only [inConnection, recordMetadataWriteFailure, run_last_of_ne hmarker]
        show List.map _ (inConnection (write.statements now) mark s).2.db.assets.rows = _
        rw [statements_rows, List.map_map]
        refine List.map_congr_left (fun r _ => ?_)
        simp [finalizedRow, isVersion_write, written_key, hmarker]

theorem marked_finalize (hmarked : Marked before s) (write : PendingStateWrite) (exifOk : Bool)
    (mark marker : Option Nat) :
    Marked (before ++ [.finalize write exifOk mark marker])
        ((StateStep.finalize write exifOk mark marker).run now s) ↔
      (StateStep.finalize write exifOk mark marker).Honest before s := by
  have hother (r : AssetRow) (hkey : r.key ≠ write.key) :
      finalizedRow write mark marker (write.Lands now mark s && !exifOk) now r = r := by
    simp [finalizedRow, PendingStateWrite.written, hkey]
  have hkeys (r : AssetRow) :
      (finalizedRow write mark marker (write.Lands now mark s && !exifOk) now r).key = r.key := by
    unfold finalizedRow
    split
    · exact written_key r
    · exact written_key r
  have hfailed : MetadataFailed (before ++ [.finalize write exifOk mark marker]) write.key ↔
      exifOk = false ∨ MetadataFailed before write.key := by
    rw [metadataFailed_snoc]
    constructor
    · rintro (hbefore | ⟨_, _, _, heq, -⟩)
      · exact .inr hbefore
      · cases heq
        exact .inl rfl
    · rintro (rfl | hbefore)
      · exact .inr ⟨write, mark, marker, rfl, rfl⟩
      · exact .inl hbefore
  rw [marked_rows hmarked finalize_rows hkeys hother, hfailed]
  · refine imp_congr_right (fun _ => forall₂_congr fun r hr => imp_congr_right fun hkey => ?_)
    rw [← @lands_iff now write mark s ⟨r, hr, hkey⟩]
    by_cases hburnt : mark = some 0
    · subst hburnt
      have hlands : write.Lands now (some 0) s = false := rfl
      simp only [finalizedRow, PendingStateWrite.written, hlands]
      simp
      tauto
    · cases hlands : write.Lands now mark s <;> cases exifOk <;>
        by_cases hmarker : marker = some 0 <;>
          simp [finalizedRow, PendingStateWrite.written, AssetRow.downloadedAs, hkey, hburnt,
            hmarker]
  · intro k hk hsteps
    rcases metadataFailed_snoc.mp hsteps with hbefore | ⟨_, _, _, heq, hkey⟩
    · exact hbefore
    · cases heq
      exact absurd hkey.symm hk

theorem marked_retry (hmarked : Marked before s) (write : PendingStateWrite)
    (mark : Option Nat) :
    Marked (before ++ [.retry write mark]) ((StateStep.retry write mark).run now s) ↔
      (StateStep.retry write mark).Honest before s := by
  have hfailed (key : Key) : MetadataFailed (before ++ [.retry write mark]) key ↔
      MetadataFailed before key := by
    rw [metadataFailed_snoc]
    simp
  have hother (r : AssetRow) (hkey : r.key ≠ write.key) : write.written mark r = r := by
    simp [PendingStateWrite.written, hkey]
  have hrows : ((StateStep.retry write mark).run now s).db.assets.rows =
      s.db.assets.rows.map (write.written mark) := statements_rows
  rw [marked_rows hmarked hrows written_key hother (fun k _ => (hfailed k).mp), hfailed]
  refine forall_congr' fun hbefore => forall₂_congr fun r hr => imp_congr_right fun hkey => ?_
  rw [written_marker]
  by_cases hburnt : mark = some 0
  · have hsame : write.written mark r = r := by simp [PendingStateWrite.written, hburnt]
    rw [hsame]
    exact iff_of_true (hmarked r hr (hkey ▸ hbefore)) (.inr hburnt)
  · simp [PendingStateWrite.written, AssetRow.downloadedAs, hkey, hburnt]

theorem marked_fail (hmarked : Marked before s) (library assetId versionSize error : String)
    (mark : Option Nat) :
    Marked (before ++ [.fail library assetId versionSize error mark])
      ((StateStep.fail library assetId versionSize error mark).run now s) := by
  have hfailed (key : Key) :
      MetadataFailed (before ++ [.fail library assetId versionSize error mark]) key ↔
        MetadataFailed before key := by
    rw [metadataFailed_snoc]
    simp
  -- the row fails, or it stays
  have hrows : ∀ r ∈ ((StateStep.fail library assetId versionSize error mark).run now
      s).db.assets.rows, r.status = .downloaded → r ∈ s.db.assets.rows := by
    have hupdate : ∀ r ∈ (s.db.assets.update (AssetRow.isVersion library assetId versionSize)
        (AssetRow.failedWith error) (fun _ => rfl)).rows, r.status = .downloaded →
          r ∈ s.db.assets.rows := by
      intro r hr hstatus
      obtain ⟨q, hq, rfl⟩ := Table.mem_update.mp hr
      split at hstatus
      · simp [AssetRow.failedWith] at hstatus
      · next hversion => rwa [if_neg hversion]
    unfold StateStep.run markFailedStatements inConnection
    rcases mark with - | - | n
    · simp only [run_execute_none]
      split
      · rw [run_refuse]
        exact hupdate
      · rw [run_pure]
        exact hupdate
    · exact fun r hr _ => hr
    · simp only [run_execute_succ]
      split
      · rw [run_refuse]
        exact hupdate
      · rw [run_pure]
        exact hupdate
  intro r hr hrfailed hstatus
  exact hmarked r (hrows r hr hstatus) ((hfailed r.key).mp hrfailed) hstatus

theorem marked_step (hmarked : Marked before s) (step : StateStep) :
    Marked (before ++ [step]) (step.run now s) ↔ step.Honest before s := by
  cases step with
  | finalize write exifOk mark marker => exact marked_finalize hmarked write exifOk mark marker
  | retry write mark => exact marked_retry hmarked write mark
  | fail library assetId versionSize error mark =>
      exact iff_of_true (marked_fail hmarked library assetId versionSize error mark) trivial

end step

/-! ### all steps -/

variable {steps : List StateStep}

theorem runAll_snoc {s : StateTables} :
    StateStep.runAll now s (steps ++ [step]) = step.run now (StateStep.runAll now s steps) :=
  List.foldl_concat ..

theorem staysMarked_snoc {s : StateTables} :
    StaysMarked now s (steps ++ [step]) ↔
      StaysMarked now s steps ∧
        Marked (steps ++ [step]) (StateStep.runAll now s (steps ++ [step])) := by
  have hall : (steps ++ [step]).take (steps.length + 1) = steps ++ [step] :=
    List.take_of_length_le (by simp)
  constructor
  · intro h
    refine ⟨fun n => ?_, hall ▸ h (steps.length + 1)⟩
    have hn := h (min n steps.length)
    rwa [List.take_append_of_le_length (Nat.min_le_right _ _), ← List.take_eq_take_min] at hn
  · rintro ⟨hsteps, hlast⟩ n
    by_cases hn : n ≤ steps.length
    · rw [List.take_append_of_le_length hn]
      exact hsteps n
    · rw [List.take_of_length_le (by simp; omega)]
      exact hlast

theorem honestSteps_snoc {s : StateTables} :
    HonestSteps now s (steps ++ [step]) ↔
      HonestSteps now s steps ∧ step.Honest steps (StateStep.runAll now s steps) := by
  constructor
  · intro h
    refine ⟨fun before st after heq => h before st (after ++ [step]) ?_, h steps step [] rfl⟩
    rw [heq, List.append_assoc, List.cons_append]
  · rintro ⟨hsteps, hlast⟩ before st after heq
    rcases List.eq_nil_or_concat after with rfl | ⟨after', last, rfl⟩
    · obtain ⟨rfl, hstep⟩ := List.append_inj' heq rfl
      cases hstep
      exact hlast
    · rw [List.concat_eq_append, ← List.cons_append, ← List.append_assoc] at heq
      exact hsteps before st after' (List.append_inj' heq rfl).1

theorem staysMarked_iff (s : StateTables) (steps : List StateStep) :
    StaysMarked now s steps ↔ HonestSteps now s steps := by
  induction steps using List.reverseRecOn with
  | nil =>
      refine iff_of_true (fun n r _ hfailed => ?_) (fun before step after h => by simp at h)
      obtain ⟨write, mark, marker, hmem, -⟩ := hfailed
      simp at hmem
  | append_singleton steps step ih =>
      rw [staysMarked_snoc, honestSteps_snoc, ih]
      refine and_congr_right (fun hsteps => ?_)
      have hmarked : Marked steps (StateStep.runAll now s steps) := by
        have hall := ih.mpr hsteps steps.length
        rwa [List.take_length] at hall
      rw [runAll_snoc]
      exact marked_step hmarked step

/-! ## the steps of a pass -/

/-- The tables are what the steps made of `s`. -/
def PassState.Follows (now : Int) (s : StateTables) (p : PassState) : Prop :=
  p.tables = StateStep.runAll now s p.steps

/-- Part of a pass that follows its steps and forgets none. -/
def Traced (now : Int) {α : Type} (f : PassM α) : Prop :=
  ∀ p : PassState, p.steps <+: (f p).2.steps ∧
    ∀ s, p.Follows now s → (f p).2.Follows now s

section traced

variable {α β : Type}

theorem traced_pure {a : α} : Traced now (pure a : PassM α) :=
  fun p => ⟨List.prefix_refl p.steps, fun _ h => h⟩

theorem traced_bind {f : PassM α} {g : α → PassM β} (hf : Traced now f)
    (hg : ∀ a, Traced now (g a)) : Traced now (f >>= g) := by
  intro p
  obtain ⟨hsteps, hfollows⟩ := hf p
  obtain ⟨hsteps', hfollows'⟩ := hg (f p).1 (f p).2
  exact ⟨hsteps.trans hsteps', fun s h => hfollows' s (hfollows s h)⟩

theorem traced_nextFuse : Traced now nextFuse :=
  fun p => ⟨List.prefix_refl p.steps, fun _ h => h⟩

theorem traced_markerFuse {marks : Bool} : Traced now (markerFuse marks) := by
  cases marks with
  | true => exact traced_nextFuse
  | false => exact traced_pure

theorem traced_get : Traced now (get : PassM PassState) :=
  fun p => ⟨List.prefix_refl p.steps, fun _ h => h⟩

theorem follows_step {p : PassState} {s : StateTables} {step : StateStep} (h : p.Follows now s) :
    PassState.Follows now s
      { p with tables := step.run now p.tables, steps := p.steps ++ [step] } := by
  unfold PassState.Follows at h ⊢
  rw [runAll_snoc, ← h]

theorem traced_makeStep {write : PendingStateWrite} {mark : Option Nat} {step : StateStep} :
    Traced now (makeStep now write mark step) :=
  fun p => ⟨List.prefix_append p.steps [step], fun _ h => follows_step h⟩

variable {task : PublishedTask}

theorem traced_finalizeDownloaded {library : String} {localChecksum : String}
    {downloadChecksum : Option String} {exifOk markCaptureRepair : Bool} :
    Traced now (finalizeDownloaded now library task localChecksum downloadChecksum exifOk
      markCaptureRepair) := by
  refine traced_bind traced_nextFuse (fun mark => traced_bind traced_get (fun p => ?_))
  exact traced_bind traced_markerFuse
    (fun marker => traced_bind traced_makeStep (fun persisted => traced_pure))

theorem traced_finalizeFailed {library : String} {error : String} :
    Traced now (finalizeFailed now library task error) :=
  traced_bind traced_nextFuse (fun _ p => ⟨List.prefix_append p.steps _, fun _ h => follows_step h⟩)

theorem traced_retryPendingStateWrite {write : PendingStateWrite} (attempts : Nat) :
    Traced now (retryPendingStateWrite now write attempts) := by
  induction attempts with
  | zero => exact traced_pure
  | succ attempts ih =>
      refine traced_bind traced_nextFuse (fun mark => ?_)
      refine traced_bind traced_makeStep (fun landed => ?_)
      split
      · exact traced_pure
      · exact ih

theorem traced_retryPendingStateWrites (pending : List PendingStateWrite) :
    Traced now (retryPendingStateWrites now pending) := by
  induction pending with
  | nil => exact traced_pure
  | cons write pending ih =>
      exact traced_bind (traced_retryPendingStateWrite stateWriteMaxRetries)
        (fun _ => traced_bind ih (fun _ => traced_pure))

theorem traced_flushRetaining (pending : List PendingStateWrite) :
    Traced now (flushPendingStateWritesRetainingFailures now pending) := by
  unfold flushPendingStateWritesRetainingFailures
  split
  · exact traced_pure
  · exact traced_bind (traced_retryPendingStateWrites pending) (fun _ => traced_pure)

theorem traced_flush (pending : List PendingStateWrite) :
    Traced now (flushPendingStateWrites now pending) := by
  unfold flushPendingStateWrites
  split
  · exact traced_pure
  · exact traced_bind (traced_retryPendingStateWrites pending) (fun _ => traced_pure)

theorem traced_checkStateWriteCircuitBreaker (pending : List PendingStateWrite) :
    Traced now (checkStateWriteCircuitBreaker now pending) := by
  unfold checkStateWriteCircuitBreaker
  split
  · exact traced_pure
  · exact traced_bind (traced_flushRetaining pending) (fun _ => traced_pure)

variable {consumer : Consumer}

theorem traced_settle {finalization : DownloadedFinalization} :
    Traced now (consumer.settle now finalization) := by
  unfold Consumer.settle
  split
  · exact traced_pure
  · dsimp only
    split
    · exact traced_pure
    · exact traced_bind (traced_checkStateWriteCircuitBreaker _) (fun _ => traced_pure)

theorem traced_consumeResult {flag : Bool} {result : TaskResult} :
    Traced now (consumeResult now flag consumer task result) := by
  unfold consumeResult
  split
  · exact traced_bind traced_finalizeDownloaded (fun finalization => traced_settle)
  · exact traced_pure
  · exact traced_bind traced_finalizeFailed (fun _ => traced_pure)

theorem traced_consumeResults {flag : Bool} (results : List (PublishedTask × TaskResult))
    (consumer : Consumer) : Traced now (consumeResults now flag consumer results) := by
  induction results generalizing consumer with
  | nil => exact traced_pure
  | cons result results ih => exact traced_bind traced_consumeResult (fun consumer => ih consumer)

theorem traced_finish : Traced now (consumer.finish now) := by
  unfold Consumer.finish
  split
  · exact traced_pure
  · exact traced_flush _

theorem traced_runDownloadPass {flag : Bool} (results : List (PublishedTask × TaskResult)) :
    Traced now (runDownloadPass now flag results) :=
  traced_bind (traced_consumeResults results _) (fun _ => traced_finish)

end traced

theorem MetadataFailed.later {steps steps' : List StateStep} {key : Key}
    (h : MetadataFailed steps key) (hextends : steps <+: steps') : MetadataFailed steps' key := by
  obtain ⟨write, mark, marker, hmem, hkey⟩ := h
  exact ⟨write, mark, marker, hextends.subset hmem, hkey⟩

def PublishedTask.key (task : PublishedTask) : Key :=
  ⟨task.library, task.assetId, task.versionSize.asStr⟩

theorem finalizeDownloaded_failed {task : PublishedTask} {localChecksum : String}
    {downloadChecksum : Option String} {markCaptureRepair : Bool} (p : PassState) :
    MetadataFailed (finalizeDownloaded now task.library task localChecksum downloadChecksum false
      markCaptureRepair p).2.steps task.key :=
  ⟨⟨task.library, task.assetId, task.versionSize, task.downloadPath, localChecksum,
    downloadChecksum, markCaptureRepair⟩, _, _,
    List.mem_append_right _ (List.mem_singleton.mpr rfl), rfl⟩

/-- Every download that was finished without its metadata is among the steps. -/
theorem consumeResults_failed {flag : Bool} {results : List (PublishedTask × TaskResult)}
    {task : PublishedTask} {localChecksum : String} {downloadChecksum : Option String}
    (h : (task, .ok false localChecksum downloadChecksum) ∈ results) (consumer : Consumer)
    (p : PassState) :
    MetadataFailed (consumeResults now flag consumer results p).2.steps task.key := by
  induction results generalizing consumer p with
  | nil => cases h
  | cons first results ih =>
      rcases List.mem_cons.mp h with rfl | hrest
      · have hfirst : MetadataFailed (consumeResult now flag consumer task
            (.ok false localChecksum downloadChecksum) p).2.steps task.key :=
          (finalizeDownloaded_failed p).later (traced_settle _).1
        exact hfirst.later ((traced_consumeResults results _) _).1
      · exact ih hrest _ _

/-! ## the pass -/

section pass

variable (now : Int) (markCaptureRepair : Bool) (results : List (PublishedTask × TaskResult))
  (fuses : List (Option Nat)) (s : StateTables)

/-- The pass over the store `s`, with its failures. -/
def passOver : PassState := (runDownloadPass now markCaptureRepair results ⟨s, fuses, []⟩).2

/-- At the end no row of a file without its metadata is downloaded and without its marker. -/
def MarkersKept : Prop :=
  ∀ task localChecksum downloadChecksum,
    (task, .ok false localChecksum downloadChecksum) ∈ results →
      ∀ r ∈ (passOver now markCaptureRepair results fuses s).tables.db.assets.rows,
        r.key = task.key → r.status = .downloaded → r.metadataWriteFailedAt.isSome = true

theorem passOver_follows :
    (passOver now markCaptureRepair results fuses s).tables =
      StateStep.runAll now s (passOver now markCaptureRepair results fuses s).steps :=
  (traced_runDownloadPass results _).2 s rfl

theorem passOver_failed {task : PublishedTask} {localChecksum : String}
    {downloadChecksum : Option String}
    (h : (task, .ok false localChecksum downloadChecksum) ∈ results) :
    MetadataFailed (passOver now markCaptureRepair results fuses s).steps task.key := by
  have hconsumed := @consumeResults_failed now markCaptureRepair _ _ _ _ h ⟨[], false⟩
    ⟨s, fuses, []⟩
  exact hconsumed.later (traced_finish _).1

/-- **Markers of failed metadata writes**: after every step of a pass the downloaded rows of files
without their metadata have their markers exactly if every step is honest, and then they have
them at the end. -/
theorem runDownloadPass_marked_iff :
    (StaysMarked now s (passOver now markCaptureRepair results fuses s).steps ↔
        HonestSteps now s (passOver now markCaptureRepair results fuses s).steps) ∧
      (HonestSteps now s (passOver now markCaptureRepair results fuses s).steps →
        MarkersKept now markCaptureRepair results fuses s) := by
  refine ⟨staysMarked_iff s _, fun h task localChecksum downloadChecksum hresult r hr hkey => ?_⟩
  have hmarked := (staysMarked_iff s _).mpr h
    (passOver now markCaptureRepair results fuses s).steps.length
  rw [List.take_length, ← passOver_follows] at hmarked
  refine hmarked r hr ?_
  rw [hkey]
  exact passOver_failed now markCaptureRepair results fuses s hresult

end pass

/-! ### a success state that is put off -/

def unmarkedTask : PublishedTask where
  url := "https://cvws.icloud-content.com/a"
  downloadPath := "/a"
  checksum := "AAAA"
  assetId := "a"
  assetRecordName := "a"
  library := "PrimarySync"
  size := 1
  createdLocal := ⟨0, 0⟩
  versionSize := .original
  mediaType := .photo
  publication := .noReplace

/-- The first write of the success state fails; it is written later, without the marker. -/
theorem deferred_not_marked :
    ¬MarkersKept 7 false [(unmarkedTask, .ok false "s" none)] [some 0] seenTables := by
  intro h
  have hrow : ∃ r ∈ (passOver 7 false [(unmarkedTask, .ok false "s" none)] [some 0]
      seenTables).tables.db.assets.rows, r.key = unmarkedTask.key ∧ r.status = .downloaded ∧
        r.metadataWriteFailedAt = none := by
    decide +kernel
  obtain ⟨r, hr, hkey, hstatus, hmarker⟩ := hrow
  have hmarked := h unmarkedTask "s" none (List.mem_singleton.mpr rfl) r hr hkey hstatus
  simp [hmarker] at hmarked

/-- Nothing fails but the metadata write: the marker is there. -/
theorem written_marked :
    MarkersKept 7 false [(unmarkedTask, .ok false "s" none)] [] seenTables := by
  have hsteps : (passOver 7 false [(unmarkedTask, .ok false "s" none)] [] seenTables).steps =
      [.finalize ⟨"PrimarySync", "a", .original, "/a", "s", none, false⟩ false none none] := rfl
  refine (runDownloadPass_marked_iff 7 false _ [] seenTables).2 ?_
  rw [hsteps]
  intro before step after heq
  cases before with
  | nil =>
      cases heq
      have hspared (count : Nat) : Spares none count := by
        intro n h
        cases h
      exact fun _ r _ _ => .inr (.inl ⟨rfl, hspared _, by simp⟩)
  | cons first before => simp at heq

end Kei.Download
