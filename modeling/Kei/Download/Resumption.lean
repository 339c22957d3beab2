import Kei.Download.Publication

/-!
# Kei.Download.Resumption

What the attempts at one task make of its temporary file when they may stop at
any point.

`View.Good` is kept at every point of every run, as long as what the metadata
writer makes of the content, and the file that a publication was approved to
replace, are fine to be found at the temporary path.
-/

namespace Kei.Download

open Proc Relation

/-! ## the attempts at a task -/

namespace SingleTask

variable (host : LandHost) (task : SingleTask) (content : Content)

/-- Metadata may be written into the temporary file of the task. -/
def MayEmbed : Prop :=
  task.anyEmbed = true ∧ ∃ found, host.isEmbedWritablePath task.downloadPath found = true

/-- What is to be downloaded; only its fronts are to be continued. -/
def aim : Aim where
  content := content
  mayResume bytes := bytes <+: content
  mayReturn bytes := task.publication = .replaceTruncated (fingerprintOf host bytes)
  since := none

/-- Nothing that the task may find at its temporary path is continued to something else. -/
structure FrontsOnly (start : World) : Prop where
  part : ∀ bytes, start.bytesAt task.partPath = some bytes →
    Fine content (fun bytes => bytes <+: content) bytes
  embed : task.MayEmbed host → ∀ seed output, host.embed seed content = some output →
    Fine content (fun bytes => bytes <+: content) output
  replaced : ∀ bytes, start.bytesAt task.downloadPath = some bytes →
    task.publication = .replaceTruncated (fingerprintOf host bytes) →
      Fine content (fun bytes => bytes <+: content) bytes

end SingleTask

/-! ## the stages of a task -/

section stages

variable {host : LandHost} {task : SingleTask} {content : Content}
  {rely : World → World → Prop} {P : View → Prop}

/-- `Lands` for the attempts at a task. -/
abbrev LandsTask (host : LandHost) (task : SingleTask) (content : Content)
    (rely : World → World → Prop) (P : View → Prop) (program : ExceptT ε (Proc Call Resp) α)
    (R : α → View → Prop) : Prop :=
  Lands host task.toAttempt rely none (View.Good (task.aim host content)) P program R

/-- A closed temporary file that is fine. -/
def Prepared (content : Content) (v : View) : Prop :=
  v.handle = none ∧ ∃ bytes, v.partBytes = some bytes ∧
    Fine content (fun bytes => bytes <+: content) bytes

variable (hrely : task.toAttempt.Undisturbed rely)
include hrely

theorem task_needsEmbed :
    LandsTask host task content rely P (task.needsEmbed)
      (fun r v => (r = true → task.MayEmbed host) ∧ P v) := by
  refine lands_ite (fun hany => ?_) (fun _ => lands_pure hrely (fun _ _ hP => ⟨nofun, hP⟩))
  exact lands_look hrely (fun _ _ => rfl)
    (fun w c _ _ hP => ⟨fun hr => ⟨hany, w.bytesAt task.downloadPath, hr⟩, hP⟩)

theorem task_claimTempFile :
    LandsTask host task content rely P (task.claimTempFile) (fun _ v => P v) := by
  refine lands_ite (fun _ => ?_) (fun _ => lands_pure hrely (fun _ _ hP => hP))
  refine lands_bind (lands_look hrely (R := fun _ v => P v) (fun w c => ?_)
    (fun _ _ _ _ hP => hP)) (fun r => ?_)
  · simp only [act]
    split <;> rfl
  · cases r with
    | true => exact lands_pure hrely (fun _ _ hP => hP)
    | false => exact lands_throw hrely

theorem task_run (hserver : task.server = .of content) (fuel : Nat) (needsEmbed : Bool) :
    LandsTask host task content rely (fun _ => True) ((task.attempt needsEmbed).run host fuel)
      (fun downloaded v => downloaded.content = content ∧
        (needsEmbed = true → Complete (task.aim host content) v)) := by
  have hrun : LandsTask host task content rely (View.Good (task.aim host content))
      ((task.attempt needsEmbed).run host fuel)
      (fun downloaded v => downloaded.content = content ∧
        (needsEmbed = true → View.Good (task.aim host content) v ∧
          Complete (task.aim host content) v) ∧
        (needsEmbed = false → Published (task.attempt needsEmbed) content v)) :=
    lands_run (a := task.attempt needsEmbed) (task.aim host content) hrely hserver
      resumable_front (fun _ h => h)
      (kept_good (task.aim host content) rfl (fine_of_long (Nat.le_refl _)) (fun _ h => h)) fuel
  exact lands_conseq hrun (fun _ hgood _ => hgood)
    (fun _ _ _ hR => ⟨hR.1, fun hneeds => (hR.2.1 hneeds).2⟩)

theorem task_downloadFile (hserver : task.server = .of content) (fuel : Nat) (needsEmbed : Bool)
    (retries : Nat) :
    LandsTask host task content rely (fun _ => True)
      (downloadFile host fuel (task.attempt needsEmbed) retries)
      (fun downloaded v => downloaded.content = content ∧
        (needsEmbed = true → Complete (task.aim host content) v)) := by
  induction retries with
  | zero => exact task_run hrely hserver fuel needsEmbed
  | succ retries ih =>
      refine lands_bind (lands_try (task_run hrely hserver fuel needsEmbed)) (fun r => ?_)
      cases r with
      | ok downloaded => exact lands_pure hrely (fun _ _ hP => hP downloaded rfl)
      | error e =>
          exact lands_ite (fun _ => lands_conseq ih (fun _ _ _ => trivial) (fun _ _ _ h => h))
            (fun _ => lands_throw hrely)

theorem task_checksum {path : Path} :
    LandsTask host task content rely P (computeSha256 host path) (fun _ v => P v) := by
  refine lands_bind (lands_look hrely (R := fun _ v => P v) (fun _ _ => rfl)
    (fun _ _ _ _ hP => hP)) (fun r => ?_)
  cases r with
  | some bytes => exact lands_pure hrely (fun _ _ hP => hP)
  | none => exact lands_throw hrely

/-- What the metadata writer puts in place of the content is fine as well. -/
theorem task_embed (hembed : ∀ seed output, host.embed seed content = some output →
      Fine content (fun bytes => bytes <+: content) output) :
    LandsTask host task content rely (Complete (task.aim host content))
      (ask (.embedMetadata task.partPath)) (fun _ => Prepared content) := by
  refine lands_lift hrely (fun w c _ hgood hcomplete => ?_)
  show (task.toAttempt.view (embedAnswer host w c task.partPath).2).Good (task.aim host content) ∧
    Prepared content (task.toAttempt.view (embedAnswer host w c task.partPath).2)
  obtain ⟨hclosed, hbytes⟩ := hcomplete
  have hpart : w.bytesAt task.partPath = some content := hbytes
  unfold embedAnswer
  split
  · exact ⟨hgood, hclosed, content, hbytes, fine_of_long (Nat.le_refl _)⟩
  · next output hwrite =>
    have hfine : Fine content (fun bytes => bytes <+: content) output := by
      split at hwrite
      · contradiction
      · rw [hpart] at hwrite
        exact hembed c.seed output hwrite
    have hnew : (w.create task.partPath output).bytesAt task.partPath = some output :=
      bytesAt_create_self
    refine ⟨⟨fun bytes h => ?_, fun i bytes h => ?_, fun bytes h hreturn => ?_⟩, hclosed, output,
      hnew, hfine⟩
    · cases hnew.symm.trans h
      exact .inl hfine
    · have hstill : (task.toAttempt.view (w.create task.partPath output)).handle = none := hclosed
      rw [hstill] at h
      contradiction
    · have hfinal : (w.create task.partPath output).bytesAt task.downloadPath = some bytes := h
      rcases bytesAt_create hfinal with rfl | hbefore
      · exact hfine
      · exact hgood.final bytes hbefore hreturn

omit hrely in
theorem view_setMtime (a : Attempt) (w : World) (inode : Nat) (timestamp : Int) :
    ∃ mtime, a.view (w.setFile inode { w.files inode with mtime := timestamp }) =
      { a.view w with partMtime := mtime } := by
  have hbytes : ∀ i, ((w.setFile inode { w.files inode with mtime := timestamp }).files i).bytes =
      (w.files i).bytes := by
    intro i
    by_cases hi : i = inode
    · simp [World.setFile, hi]
    · simp [World.setFile, hi]
  refine ⟨(a.view (w.setFile inode { w.files inode with mtime := timestamp })).partMtime, ?_⟩
  unfold Attempt.view World.bytesAt
  simp only [hbytes]
  rfl

theorem task_setFileMtime {path : Path} {timestamp : Int} {Q : View → Prop}
    (hQ : ∀ v mtime, Q v → Q { v with partMtime := mtime }) :
    LandsTask host task content rely Q (ask (.setFileMtime path timestamp)) (fun _ => Q) := by
  refine lands_lift hrely (fun w c _ hgood hP => ?_)
  show (task.toAttempt.view (setMtimeAnswer w c path timestamp).2).Good (task.aim host content) ∧
    Q (task.toAttempt.view (setMtimeAnswer w c path timestamp).2)
  unfold setMtimeAnswer
  split
  · exact ⟨hgood, hP⟩
  · next inode _ =>
    obtain ⟨mtime, hview⟩ := view_setMtime task.toAttempt w inode timestamp
    simp only [hview]
    refine ⟨⟨fun bytes h => ?_, hgood.opened, hgood.final⟩, hQ _ mtime hP⟩
    rcases hgood.part bytes h with hfine | ⟨s, m, hs, -⟩
    · exact .inl hfine
    · exact nomatch hs

theorem task_publish :
    LandsTask host task content rely (Prepared content)
      (publish host task.partPath task.downloadPath task.publication) (fun _ _ => True) := by
  have hprepared : LandsTask host task content rely
      (fun v => ∃ bytes, Fine content (fun bytes => bytes <+: content) bytes ∧
        v.handle = none ∧ v.partBytes = some bytes)
      (publish host task.partPath task.downloadPath task.publication) (fun _ _ => True) := by
    refine lands_exists (fun bytes => lands_pre (fun _ _ hP => hP.1) (fun hfine => ?_))
    have hkept : Kept host task.toAttempt bytes (View.Good (task.aim host content)) :=
      kept_good (task.aim host content) rfl hfine (fun _ h => h)
    exact lands_conseq (lands_publish hrely hkept) (fun _ _ hP => hP.2) (fun _ _ _ _ => trivial)
  refine lands_conseq hprepared (fun v _ hP => ?_) (fun _ _ _ _ => trivial)
  obtain ⟨hclosed, bytes, hbytes, hfine⟩ := hP
  exact ⟨bytes, hfine, hclosed, hbytes⟩

theorem task_landBytes {needsEmbed : Bool} (hembed : needsEmbed = true → ∀ seed output,
      host.embed seed content = some output →
      Fine content (fun bytes => bytes <+: content) output) :
    LandsTask host task content rely
      (fun v => needsEmbed = true → Complete (task.aim host content) v)
      (task.landBytes host needsEmbed) (fun _ _ => True) := by
  refine lands_ite (fun hneeds => ?_) (fun _ => ?_)
  · refine lands_bind (lands_bind (task_checksum hrely) fun _ =>
      lands_bind (lands_conseq (task_embed hrely (hembed hneeds)) (fun _ _ hP => hP hneeds)
        (fun _ _ _ h => h)) fun _ =>
      lands_bind (task_setFileMtime hrely (fun _ _ h => h)) fun _ =>
      lands_bind (task_publish hrely) fun _ =>
      lands_pure hrely (R := fun _ _ => True) (fun _ _ _ => trivial)) (fun _ => ?_)
    exact lands_pure hrely (fun _ _ _ => trivial)
  · exact lands_bind (task_setFileMtime hrely (fun _ _ h hneeds => h hneeds)) fun _ =>
      lands_pure hrely (fun _ _ _ => trivial)

theorem task_finish {needsEmbed : Bool} {downloaded : Downloaded}
    (hembed : needsEmbed = true → ∀ seed output, host.embed seed content = some output →
      Fine content (fun bytes => bytes <+: content) output) :
    LandsTask host task content rely
      (fun v => needsEmbed = true → Complete (task.aim host content) v)
      (task.finish host needsEmbed downloaded) (fun _ _ => True) :=
  lands_bind (task_landBytes hrely hembed) fun _ =>
    lands_bind (lands_look hrely (R := fun _ _ => True) (fun _ _ => rfl)
      (fun _ _ _ _ _ => trivial)) fun _ =>
    lands_bind (task_checksum hrely) fun _ => lands_pure hrely (fun _ _ _ => trivial)

theorem task_retire {result : Except DownloadError Landed} :
    LandsTask host task content rely P (task.retire result) (fun _ _ => True) := by
  refine lands_ite (fun _ => ?_) (fun _ => ?_)
  · refine lands_bind (lands_look hrely (R := fun _ _ => True) (fun w c => ?_)
      (fun _ _ _ _ _ => trivial)) (fun r => ?_)
    · simp only [act]
      split <;> rfl
    · cases result with
      | ok landed =>
          cases r with
          | true => exact lands_pure hrely (fun _ _ _ => trivial)
          | false => exact lands_throw hrely
      | error e =>
          cases r with
          | true => exact lands_throw hrely
          | false => exact lands_throw hrely
  · cases result with
    | ok landed => exact lands_pure hrely (fun _ _ _ => trivial)
    | error e => exact lands_throw hrely

/-- **A temporary file that is continued stays a front of the content.** -/
theorem task_lands (hserver : task.server = .of content)
    (hembed : task.MayEmbed host → ∀ seed output, host.embed seed content = some output →
      Fine content (fun bytes => bytes <+: content) output) (fuel : Nat) :
    LandsTask host task content rely (fun _ => True) (task.run host fuel) (fun _ _ => True) := by
  refine lands_bind (task_needsEmbed hrely) fun needsEmbed => ?_
  refine lands_pre (fun _ _ hP => hP.1) fun hmay => ?_
  refine lands_bind (task_claimTempFile hrely) fun _ => ?_
  have hland : LandsTask host task content rely (fun _ => True)
      (task.land host fuel needsEmbed) (fun _ _ => True) :=
    lands_bind (task_downloadFile hrely hserver fuel needsEmbed task.retries) fun downloaded =>
      lands_conseq (task_finish hrely (fun hneeds => hembed (hmay hneeds)))
        (fun _ _ hP => hP.2) (fun _ _ _ _ => trivial)
  exact lands_bind (lands_conseq (lands_try hland) (fun _ _ _ => trivial) (fun _ _ _ h => h))
    fun _ => task_retire hrely

end stages

/-! ## runs of the task -/

theorem undisturbed_waits {a : Attempt} : a.Undisturbed Waits := by
  rintro w w' ⟨elapsed, rfl⟩
  refine ⟨rfl, ?_⟩
  show w.now ≤ w.now + elapsed
  omega

namespace SingleTask

variable (host : LandHost) (task : SingleTask) (content : Content)

/-- What is run for the task, by one process after another. -/
def Starts (p : Proc Call Resp (Except DownloadError Landed)) : Prop :=
  ∃ fuel, p = (task.run host fuel).run

/-- The temporary file, while it is written, is a front of the content. -/
def WritesFronts (w : World) : Prop :=
  ∀ inode bytes, w.handles task.who = some inode → w.entries task.partPath = some inode →
    w.bytesAt task.partPath = some bytes → bytes <+: content

/-- Wherever the processes for the task stop, a temporary file is continued only if it is a front
    of the content, and an attempt that returns has downloaded the content. -/
def ResumesRight (start : World) : Prop :=
  ∀ c, Config.Runs (answer host) Waits Waits (task.Starts host) ⟨none, start⟩ c →
    task.WritesFronts content c.state ∧
    ∀ needsEmbed fuel p w,
      Config.Runs (answer host) Waits Waits (fun _ => False)
        ⟨some ((task.attempt needsEmbed).run host fuel).run, c.state⟩ ⟨some p, w⟩ →
      task.WritesFronts content w ∧
        ∀ downloaded, p = .ret (.ok downloaded) → downloaded.content = content

variable {host task content}

/-- **What may be found at the temporary path is continued to the content only.** -/
theorem FrontsOnly.resumesRight {start : World} (h : task.FrontsOnly host content start)
    (hserver : task.server = .of content) (hclosed : start.handles task.who = none) :
    task.ResumesRight host content start := by
  intro c hrun
  have hstart : View.Good (task.aim host content) (task.toAttempt.view start) := by
    refine ⟨fun bytes hbytes => .inl (h.part bytes hbytes), fun i bytes hopen => ?_, h.replaced⟩
    have hnone : start.handles task.who = some i := hopen
    rw [hclosed] at hnone
    contradiction
  have hgood : Since none c.state ∧
      View.Good (task.aim host content) (task.toAttempt.view c.state) := by
    refine runs_invariant
      (I := fun w => Since none w ∧ View.Good (task.aim host content) (task.toAttempt.view w))
      (fun w w' hstep hw => ?_) (fun p hp w hw => ?_) ⟨nofun, hstart⟩ hrun
    · exact ⟨nofun, by rw [(undisturbed_waits w w' hstep).1]; exact hw.2⟩
    · obtain ⟨fuel, rfl⟩ := hp
      exact safe_mono (fun _ _ _ => trivial)
        (task_lands undisturbed_waits hserver h.embed fuel w ⟨hw, trivial⟩)
  refine ⟨fun inode bytes hopen hentry hbytes => hgood.2.opened inode bytes hopen hentry hbytes,
    fun needsEmbed fuel p w hlater => ?_⟩
  have hsafe := runs_safe (task_run undisturbed_waits hserver fuel needsEmbed c.state
    ⟨hgood, trivial⟩) hlater p rfl
  refine ⟨fun inode bytes hopen hentry hbytes =>
    hsafe.now.2.opened inode bytes hopen hentry hbytes, fun downloaded hp => ?_⟩
  subst hp
  exact ((hsafe _ .refl).2).2.1

end SingleTask

/-! ## a metadata writer that shortens the file -/

/-- A metadata writer that makes the same of every file. -/
def writerHost (output : Content) : LandHost :=
  { plainLandHost with
    isEmbedWritablePath := fun _ _ => true
    embed := fun _ _ => some output }

def smallContent : Content := [0xFF, 0xD8, 1, 2]

/-- A download of four bytes that metadata is to be written into. -/
def embedTask : SingleTask where
  who := 0
  server := .of smallContent
  downloadPath := "d/a.jpg"
  partPath := "d/K.part"
  skipRename := false
  expectedSize := some 4
  publication := .noReplace
  hasShutdownToken := false
  anyEmbed := true
  createdTimestamp := 0
  hasStateDb := true
  retries := 0

/-- A file that got longer, and a download that was begun before. -/
theorem lengthened_resumesRight :
    embedTask.ResumesRight (writerHost [0xFF, 0xD8, 9, 1, 2]) smallContent
      (emptyWorld.create "d/K.part" [0xFF, 0xD8]) := by
  refine SingleTask.FrontsOnly.resumesRight ⟨fun bytes hbytes => ?_,
    fun _ seed output houtput => ?_, fun bytes _ hpublication => nomatch hpublication⟩ rfl rfl
  · cases hbytes
    decide
  · cases houtput
    decide

/-- The process stops when the metadata is in the temporary file. -/
def stoppedTask : Config Call Resp World (Except DownloadError Landed) :=
  let (p, w) := calls (answer (writerHost [0xFF, 0xD8, 9])) (List.replicate 14 (works 10))
    (embedTask.run (writerHost [0xFF, 0xD8, 9]) 5).run emptyWorld
  ⟨some p, w⟩

/-- The rest of the content comes from the third byte on. -/
def resumes : Choice :=
  { works 10 with response := ⟨206, some 1, some "bytes 3-3/4", none⟩ }

/-- **A temporary file that the metadata writer made shorter is continued.** -/
theorem shortened_continued :
    ¬embedTask.ResumesRight (writerHost [0xFF, 0xD8, 9]) smallContent emptyWorld := by
  intro h
  have hstopped : Config.Runs (answer (writerHost [0xFF, 0xD8, 9])) Waits Waits
      (embedTask.Starts (writerHost [0xFF, 0xD8, 9])) ⟨none, emptyWorld⟩ stoppedTask :=
    .head (.start ⟨5, rfl⟩) (runs_calls (List.replicate 14 (works 10)) _ _)
  have hreturned := ((h stoppedTask hstopped).2 true 5 _ _
    (runs_calls (List.replicate 9 resumes) _ _)).2 ⟨4, [0xFF, 0xD8, 9, 2]⟩ rfl
  exact absurd hreturned (by decide)

end Kei.Download
