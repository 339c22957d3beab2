import Kei.Download.Foreign
import Kei.Download.Resumption

/-!
# Kei.Download.Retained

What later processes make of a file that a publication left at the temporary
path of its task.

The temporary path is the same in every run, and a later attempt takes what is
there for its own partial download.  So the file stays only while every attempt
is turned away before it opens the path, and every cleanup passes it over.
-/

namespace Kei.Download

open Proc Relation

/-! ## later processes -/

/-- A response that an attempt stops at without touching its temporary file. -/
def TurnedAway (resumeFrom : Option Nat) (response : DownloadResponse) : Prop :=
  ¬(200 ≤ response.status ∧ response.status < 300) ∨
    response.status = 206 ∧ ∃ offset, resumeFrom = some offset ∧
      response.contentType.bind rejectingContentTypeReason = none ∧
      validateResumeContentRange response.contentRange offset ≠ .ok ()

/-- A file that a cleanup passes over: written since the last completed sync, or just now. -/
def PassedOver (w : World) (modified : Int) : Prop :=
  (∀ cutoff, w.lastSyncCompleted = some cutoff → cutoff ≤ modified) ∨
    w.now - partFileRecentGraceSecs < modified

/-- What has to be true of an answer for the temporary path to be left alone. -/
def LeftAlone (part : Path) (w : World) (call : Call) (c : Choice) : Prop :=
  match call with
  | .fetch who server resumeFrom =>
      ∀ response, (fetchAnswer (w.later c.elapsed) c who server resumeFrom).1 = some response →
        TurnedAway resumeFrom response
  | .openConfinedRegularFile root path =>
      path = part → ∀ modified,
        confinedAnswer (w.later c.elapsed) c root path = some (.regular modified) →
          PassedOver (w.later c.elapsed) modified
  | _ => True

namespace SingleTask

variable (host : LandHost) (task : SingleTask)

/-- The attempts at the task, and the cleanups. -/
def Later (p : Proc Call Resp Unit) : Prop :=
  (∃ fuel, p = (task.run host fuel).run >>= fun _ => pure ()) ∨
    ∃ root, p = cleanupOrphanPartFiles root

/-- What happens between the processes does not touch the file at the temporary path. -/
def Between (w w' : World) : Prop :=
  w'.entries task.partPath = w.entries task.partPath ∧
    (∀ inode, w.entries task.partPath = some inode → w'.files inode = w.files inode) ∧
    w.now ≤ w'.now

/-- The publication stopped, or failed and retains its temporary path. -/
def LeavesTemporary (p : Option (Proc Call Resp (Except PublishError Unit))) : Prop :=
  p = none ∨ ∃ error, p = some (.ret (.error error)) ∧
    task.partPath ∈ (classifyConditionalPublishError error).retainedPaths

/-- The file of another process that a conditional publication left at the temporary path stays
    there in every run whose answers are allowed. -/
def Retains (allowed : World → Call → Choice → Prop) : Prop :=
  ∀ content s, Begins task.partPath task.downloadPath content s →
  ∀ expected c, Config.Runs (watch host) (Meddles task.downloadPath) (Meddles task.downloadPath)
      (fun _ => False) ⟨some (publishPartToFinal host task.partPath task.downloadPath
        (.replaceTruncated expected)).run, s⟩ c →
  task.LeavesTemporary c.proc →
  ∀ inode ∈ c.state.foreign, c.state.world.entries task.partPath = some inode →
  ∀ later, Config.RunsUnder (answer host) allowed Waits task.Between (task.Later host)
      ⟨none, c.state.world⟩ later →
    later.state.entries task.partPath = some inode ∧
      (later.state.files inode).bytes = (c.state.world.files inode).bytes

end SingleTask

/-! ## processes that leave the path alone -/

/-- The file at the temporary path. -/
def Holds (part : Path) (inode : Nat) (bytes : Content) (w : World) : Prop :=
  w.entries part = some inode ∧ (w.files inode).bytes = bytes

/-- A choice at which everything fails. -/
def fails : Choice := { works 0 with fails := true }

section leftAlone

variable {host : LandHost} {part : Path} {inode : Nat} {bytes : Content}

theorem leftAlone_fails (w : World) (call : Call) : LeftAlone part w call fails := by
  cases call with
  | fetch who server resumeFrom => exact fun _ h => nomatch h
  | openConfinedRegularFile root path =>
      intro _ modified h
      simp only [confinedAnswer, fails] at h
      split at h <;> simp at h
  | _ => trivial

/-- What calls answer and do when the temporary path is left alone. -/
noncomputable abbrev alone (host : LandHost) (part : Path) :
    World → (call : Call) → Choice → Resp call × World :=
  confine (answer host) (LeftAlone part) (fun _ _ => fails)

theorem alone_cases (host : LandHost) (part : Path) (w : World) (call : Call) (c : Choice) :
    ∃ c', LeftAlone part w call c' ∧ alone host part w call c = answer host w call c' :=
  confine_cases leftAlone_fails w call c

theorem stable_holds : Stable Waits (Holds part inode bytes) := by
  rintro w w' ⟨elapsed, rfl⟩ h
  exact h

/-- The process keeps the file, and errors mean nothing. -/
abbrev KeepsPart (host : LandHost) (part : Path) (inode : Nat) (bytes : Content)
    (program : Landing α) (R : α → Prop) : Prop :=
  SafeTo (alone host part) Waits (Holds part inode bytes) (Holds part inode bytes) program
    (fun r w => Holds part inode bytes w ∧ R r) (fun _ => Holds part inode bytes)

theorem keeps_pure {r : α} {R : α → Prop} (h : R r) :
    KeepsPart host part inode bytes (pure r : Landing α) R :=
  safeTo_pure stable_holds (fun _ hw => hw) (fun _ hw => ⟨hw, h⟩)

theorem keeps_throw {error : DownloadError} {R : α → Prop} :
    KeepsPart host part inode bytes (throw error : Landing α) R :=
  safeTo_throw stable_holds (fun _ hw => hw) (fun _ hw => hw)

theorem keeps_bind {x : Landing α} {f : α → Landing β} {R : α → Prop} {R' : β → Prop}
    (hx : KeepsPart host part inode bytes x R)
    (hf : ∀ r, R r → KeepsPart host part inode bytes (f r) R') :
    KeepsPart host part inode bytes (x >>= f) R' :=
  safeTo_bind hx (fun r => safeTo_pre (fun _ hw => hw.2) (fun hr =>
    (hf r hr).mono (fun _ hw => hw.1) (fun _ _ h => h) (fun _ _ h => h)))

theorem keeps_ask {call : Call} {R : Resp call → Prop}
    (h : ∀ w c, LeftAlone part w call c → (answer host w call c).2.entries = w.entries ∧
      (answer host w call c).2.files = w.files ∧ R (answer host w call c).1) :
    KeepsPart host part inode bytes (ask call) R := by
  refine safeTo_lift stable_holds (fun _ hw => hw) (fun _ => stable_holds.and stable_const)
    (fun _ _ hw => hw.1) (fun w c hw => ?_)
  obtain ⟨c', hallowed, hanswer⟩ := alone_cases host part w call c
  rw [hanswer]
  obtain ⟨hentries, hfiles, hr⟩ := h w c' hallowed
  refine ⟨⟨?_, ?_⟩, hr⟩
  · rw [hentries]
    exact hw.1
  · rw [hfiles]
    exact hw.2

variable {a : Attempt}

theorem keeps_resumeOffset :
    KeepsPart host part inode bytes a.resumeOffset (fun _ => True) := by
  refine keeps_bind (R := fun _ => True) (keeps_ask (fun w c _ => ⟨rfl, rfl, trivial⟩))
    (fun found _ => ?_)
  split
  · exact keeps_pure trivial
  · exact keeps_pure trivial

theorem keeps_fetch {offset : Nat} :
    KeepsPart host part inode bytes (a.fetch offset)
      (TurnedAway (if 0 < offset then some offset else none)) := by
  refine keeps_bind (R := fun found => ∀ response, found = some response →
    TurnedAway (if 0 < offset then some offset else none) response)
    (keeps_ask (fun w c hallowed => ?_)) (fun found hfound => ?_)
  · refine ⟨?_, ?_, hallowed⟩
    · simp only [answer, act, fetchAnswer]
      split <;> rfl
    · simp only [answer, act, fetchAnswer]
      split <;> rfl
  · cases found with
    | none => exact keeps_throw
    | some response => exact keeps_pure (hfound response rfl)

/-- An attempt that is turned away ends before it opens its temporary file. -/
theorem keeps_fill (fuel : Nat) :
    KeepsPart host part inode bytes (a.fill fuel) (fun _ => False) := by
  refine keeps_bind keeps_resumeOffset fun offset _ => keeps_bind keeps_fetch
    fun response hturned => ?_
  by_cases hresume : (response.status = 206 && 0 < offset) = true
  · have hstart : Attempt.startOf offset response = pure (.resume offset) := if_pos hresume
    obtain ⟨hstatus, hoffset⟩ : response.status = 206 ∧ 0 < offset := by simpa using hresume
    rw [if_pos hoffset] at hturned
    rcases hturned with hfailed | ⟨-, offset', hsame, hcontent, hrange⟩
    · exact absurd ⟨by omega, by omega⟩ hfailed
    · cases hsame
      rw [hstart]
      refine keeps_bind (R := fun start => start = .resume offset) (keeps_pure rfl)
        fun start hstart => ?_
      subst hstart
      have hcheck : a.checkContentType response = pure () := by
        unfold Attempt.checkContentType
        cases hct : response.contentType with
        | none => rfl
        | some ct =>
            have hnone : rejectingContentTypeReason ct = none := by simpa [hct] using hcontent
            simp [hnone]
      rw [hcheck]
      refine keeps_bind (R := fun _ => True) (keeps_pure trivial) fun _ _ => ?_
      cases hvalid : validateResumeContentRange response.contentRange offset with
      | ok _ => exact absurd hvalid hrange
      | error error =>
          have hstop : a.checkRange response (.resume offset) = throw error := by
            show (MonadExcept.ofExcept (validateResumeContentRange response.contentRange offset) >>=
              fun _ => _) = _
            rw [hvalid]
            rfl
          rw [hstop]
          exact keeps_bind (R := fun _ => False) keeps_throw (fun _ h => h.elim)
  · have hfailed : ¬(200 ≤ response.status ∧ response.status < 300) := by
      rcases hturned with hfailed | ⟨hstatus, offset', hsame, -, -⟩
      · exact hfailed
      · by_cases hoffset : 0 < offset
        · exact absurd (by simp [hstatus, hoffset]) hresume
        · simp [hoffset] at hsame
    have hstart : Attempt.startOf offset response = throw (.httpStatus response.status) := by
      unfold Attempt.startOf
      rw [if_neg hresume, if_neg (by simpa using hfailed)]
    rw [hstart]
    exact keeps_bind (R := fun _ => False) keeps_throw (fun _ h => h.elim)

theorem keeps_downloadFile (fuel retries : Nat) :
    KeepsPart host part inode bytes (downloadFile host fuel a retries) (fun _ => False) := by
  have hrun : KeepsPart host part inode bytes (a.run host fuel) (fun _ => False) :=
    keeps_bind (keeps_fill fuel) (fun _ h => h.elim)
  induction retries with
  | zero => exact hrun
  | succ retries ih =>
      refine keeps_bind (R := fun r => ∃ error, r = .error error)
        ((safeTo_try hrun).mono (fun _ h => h) (fun r w h => ?_) (fun _ _ h => h.elim))
        (fun r hr => ?_)
      · cases r with
        | ok _ => exact h.2.elim
        | error error => exact ⟨h, error, rfl⟩
      · obtain ⟨error, rfl⟩ := hr
        exact safeTo_ite (fun _ => ih) (fun _ => keeps_throw)

/-- **A process for the task that is turned away keeps the file.** -/
theorem keeps_task {task : SingleTask} (fuel : Nat) :
    KeepsPart host part inode bytes (task.run host fuel) (fun _ => True) := by
  have hneeds : KeepsPart host part inode bytes task.needsEmbed (fun _ => True) :=
    safeTo_ite (fun _ => keeps_ask (fun w c _ => ⟨rfl, rfl, trivial⟩))
      (fun _ => keeps_pure trivial)
  have hclaim : KeepsPart host part inode bytes task.claimTempFile (fun _ => True) := by
    refine safeTo_ite (fun _ => keeps_bind (R := fun _ => True) (keeps_ask (fun w c _ => ?_))
      (fun r _ => ?_)) (fun _ => keeps_pure trivial)
    · simp only [answer, act]
      split <;> exact ⟨rfl, rfl, trivial⟩
    · cases r with
      | true => exact keeps_pure trivial
      | false => exact keeps_throw
  refine keeps_bind hneeds fun needsEmbed _ => keeps_bind hclaim fun _ _ => ?_
  have hland : KeepsPart host part inode bytes (task.land host fuel needsEmbed) (fun _ => False) :=
    keeps_bind (keeps_downloadFile fuel task.retries) (fun _ h => h.elim)
  refine keeps_bind (R := fun _ => True) ((safeTo_try hland).mono (fun _ h => h)
    (fun r w h => ?_) (fun _ _ h => h.elim)) (fun result _ => ?_)
  · cases r with
    | ok _ => exact h.2.elim
    | error _ => exact ⟨h, trivial⟩
  · refine safeTo_ite (fun _ => ?_) (fun _ => ?_)
    · refine keeps_bind (R := fun _ => True) (keeps_ask (fun w c _ => ?_)) (fun r _ => ?_)
      · simp only [answer, act]
        split <;> exact ⟨rfl, rfl, trivial⟩
      · cases result with
        | ok landed =>
            cases r with
            | true => exact keeps_pure trivial
            | false => exact keeps_throw
        | error error =>
            cases r with
            | true => exact keeps_throw
            | false => exact keeps_throw
    · cases result with
      | ok landed => exact keeps_pure trivial
      | error error => exact keeps_throw

/-! ## cleanups -/

/-- The file during a cleanup that knows the last completed sync and the time. -/
def Cleaning (part : Path) (inode : Nat) (bytes : Content) (cutoff now : Int) (w : World) :
    Prop :=
  Holds part inode bytes w ∧ w.lastSyncCompleted = some cutoff ∧ now ≤ w.now

variable {cutoff now : Int}

theorem stable_cleaning : Stable Waits (Cleaning part inode bytes cutoff now) := by
  rintro w w' ⟨elapsed, rfl⟩ ⟨hholds, hcutoff, hnow⟩
  refine ⟨hholds, hcutoff, Int.le_trans hnow ?_⟩
  show w.now ≤ w.now + elapsed
  omega

variable {w : World}

theorem alone_perform {α : Type} {P : World → Prop} (hP : Stable Waits P)
    (hI : ∀ w, P w → Holds part inode bytes w) {Q : α → World → Prop} {call : Call}
    {f : Resp call → Proc Call Resp α}
    (h : ∀ w c, P w → LeftAlone part w call c → Safe (alone host part) Waits
      (Holds part inode bytes) Q (f (answer host w call c).1) (answer host w call c).2) (hw : P w) :
    Safe (alone host part) Waits (Holds part inode bytes) Q (perform call >>= f) w := by
  refine safe_perform hP hI (fun w hw c => ?_) hw
  obtain ⟨c', hallowed, hanswer⟩ := alone_cases host part w call c
  rw [hanswer]
  exact h w c' hw hallowed

theorem Cleaning.later (h : Cleaning part inode bytes cutoff now w) (elapsed : Nat) :
    Cleaning part inode bytes cutoff now (w.later elapsed) :=
  stable_cleaning w _ ⟨elapsed, rfl⟩ h

theorem Cleaning.remove {c : Choice} {path : Path} (h : Cleaning part inode bytes cutoff now w)
    (hne : path ≠ part) : Cleaning part inode bytes cutoff now (removeAnswer w c path).2 := by
  unfold removeAnswer
  split
  · exact h
  · split
    · exact h
    · obtain ⟨⟨hentry, hbytes⟩, hcutoff, hnow⟩ := h
      exact ⟨⟨by simpa [World.setEntry, hne.symm] using hentry, hbytes⟩, hcutoff, hnow⟩

theorem cleaning_pure {α : Type} {r : α} (hw : Cleaning part inode bytes cutoff now w) :
    Safe (alone host part) Waits (Holds part inode bytes)
      (fun _ w => Cleaning part inode bytes cutoff now w) (pure r : Proc Call Resp α) w := by
  intro w' hsteps
  have hw' := stable_cleaning.star hw hsteps
  exact ⟨hw'.1, hw'⟩

theorem cleaning_removeOne {root path : Path} (hw : Cleaning part inode bytes cutoff now w) :
    Safe (alone host part) Waits (Holds part inode bytes)
      (fun _ w => Cleaning part inode bytes cutoff now w)
      (removeOwnedOrphanPart root cutoff now path) w := by
  refine alone_perform stable_cleaning (fun _ h => h.1) (fun w c hw hallowed => ?_) hw
  have hlater := hw.later c.elapsed
  have hfound : (answer host w (.openConfinedRegularFile root path) c) =
      (confinedAnswer (w.later c.elapsed) c root path, w.later c.elapsed) := rfl
  rw [hfound]
  cases hcase : confinedAnswer (w.later c.elapsed) c root path with
  | none => exact cleaning_pure hlater
  | some found =>
      cases found with
      | outsideRoot => exact cleaning_pure hlater
      | retire => exact cleaning_pure hlater
      | regular modified =>
          refine safe_ite (fun _ => cleaning_pure hlater) (fun hold =>
            safe_ite (fun _ => cleaning_pure hlater) (fun hquiet => ?_))
          have hne : path ≠ part := by
            rintro rfl
            rcases hallowed rfl modified hcase with hsynced | hrecent
            · exact hold (hsynced cutoff hlater.2.1)
            · have hnow := hlater.2.2
              omega
          refine alone_perform stable_cleaning (fun _ h => h.1) (fun w c hw _ => ?_) hlater
          exact cleaning_pure ((hw.later c.elapsed).remove hne)

theorem cleaning_removeAll {root : Path} (paths : List Path)
    (hw : Cleaning part inode bytes cutoff now w) :
    Safe (alone host part) Waits (Holds part inode bytes)
      (fun _ w => Cleaning part inode bytes cutoff now w)
      (removeOwnedOrphanParts root cutoff now paths) w := by
  induction paths generalizing w with
  | nil => exact cleaning_pure hw
  | cons path paths ih =>
      refine safe_bind (safe_mono (fun retired w hw => ?_) (cleaning_removeOne hw))
      refine safe_bind (safe_mono (fun rest w hw => ?_) (ih hw))
      exact cleaning_pure hw

/-- **A cleanup that passes the file over keeps it.** -/
theorem keeps_cleanup {root : Path} (hw : Holds part inode bytes w) :
    Safe (alone host part) Waits (Holds part inode bytes) (fun _ _ => True)
      (cleanupOrphanPartFiles root) w := by
  have hdone : ∀ {w : World}, Holds part inode bytes w →
      Safe (alone host part) Waits (Holds part inode bytes) (fun _ _ => True)
        (pure () : Proc Call Resp Unit) w :=
    fun hw => safe_pure stable_holds (fun _ h => h) (fun _ _ => trivial) hw
  refine alone_perform stable_holds (fun _ h => h) (fun w c hw _ => ?_) hw
  have hsync : answer host w .lastSyncCompleted c =
      (if c.fails then none else (w.later c.elapsed).lastSyncCompleted, w.later c.elapsed) := rfl
  rw [hsync]
  have hlater : Holds part inode bytes (w.later c.elapsed) := hw
  cases hcutoff : (if c.fails then none else (w.later c.elapsed).lastSyncCompleted) with
  | none => exact hdone hlater
  | some cutoff =>
      have hknown : (w.later c.elapsed).lastSyncCompleted = some cutoff := by
        split at hcutoff
        · contradiction
        · exact hcutoff
      refine alone_perform (P := fun w => Holds part inode bytes w ∧
        w.lastSyncCompleted = some cutoff) ?_ (fun _ h => h.1) (fun w c hw _ => ?_)
        ⟨hlater, hknown⟩
      · rintro w w' ⟨elapsed, rfl⟩ h
        exact h
      · have howned : answer host w (.ownedTempFilesBefore cutoff) c =
            (if c.fails then none else some (((w.later c.elapsed).ownedTempFiles.filter
              (fun owned => owned.2 < cutoff)).map (·.1)), w.later c.elapsed) := rfl
        rw [howned]
        have hlater : Holds part inode bytes (w.later c.elapsed) ∧
            (w.later c.elapsed).lastSyncCompleted = some cutoff := hw
        generalize (if c.fails then none else some (((w.later c.elapsed).ownedTempFiles.filter
          (fun owned => owned.2 < cutoff)).map (·.1))) = found
        cases found with
        | none => exact hdone hlater.1
        | some owned =>
            cases owned with
            | nil => exact hdone hlater.1
            | cons path paths =>
                refine alone_perform (P := fun w => Holds part inode bytes w ∧
                  w.lastSyncCompleted = some cutoff) ?_ (fun _ h => h.1) (fun w c hw _ => ?_)
                  hlater
                · rintro w w' ⟨elapsed, rfl⟩ h
                  exact h
                · have hnow : answer host w .now c =
                      ((w.later c.elapsed).now, w.later c.elapsed) := rfl
                  rw [hnow]
                  have hcleaning : Cleaning part inode bytes cutoff (w.later c.elapsed).now
                      (w.later c.elapsed) := ⟨hw.1, hw.2, Int.le_refl _⟩
                  refine safe_bind (safe_mono (fun retired w hw => ?_)
                    (cleaning_removeAll (path :: paths) hcleaning))
                  refine alone_perform stable_holds (fun _ h => h) (fun w c hw _ => ?_) hw.1
                  refine hdone ?_
                  simp only [answer, act]
                  split <;> exact hw

end leftAlone

/-! ## runs of later processes -/

/-- **A file that is left alone at the temporary path stays there.** -/
theorem SingleTask.retains_leftAlone (host : LandHost) (task : SingleTask) :
    task.Retains host (LeftAlone task.partPath) := by
  intro content s _ expected c _ _ inode _ hentry later hlater
  have hruns : Config.Runs (alone host task.partPath) Waits task.Between (task.Later host)
      ⟨none, c.state.world⟩ later := runsUnder_confine hlater
  refine runs_invariant (I := Holds task.partPath inode (c.state.world.files inode).bytes)
    (fun w w' hstep hw => ?_) (fun p hp w hw => ?_) ⟨hentry, rfl⟩ hruns
  · obtain ⟨hsame, hfile, -⟩ := hstep
    exact ⟨by rw [hsame]; exact hw.1, by rw [hfile inode hw.1]; exact hw.2⟩
  · rcases hp with ⟨fuel, rfl⟩ | ⟨root, rfl⟩
    · refine safe_bind (safe_mono (fun r w hr => ?_) (keeps_task fuel w hw))
      refine safe_pure stable_holds (fun _ h => h) (fun _ _ => trivial) ?_
      cases r with
      | ok landed => exact hr.1
      | error error => exact hr
    · exact keeps_cleanup hw

/-! ## an attempt that is answered -/

/-- A task that is to replace a truncated file. -/
def replaceTask : SingleTask where
  who := 0
  server := .of smallContent
  downloadPath := "d/a.jpg"
  partPath := "d/a.tmp"
  skipRename := false
  expectedSize := some 4
  publication := .replaceTruncated (fingerprintOf plainLandHost [1])
  hasShutdownToken := false
  anyEmbed := false
  createdTimestamp := 0
  hasStateDb := true
  retries := 0

/-- The publication exchanges the names after another process wrote a new final file. -/
def exchanged (s : Watched) : Watched :=
  let c := calls (watch plainLandHost) (List.replicate 2 (works 0))
    (publishPartToFinal plainLandHost "d/a.tmp" "d/a.jpg" replaceTask.publication).run s
  (calls (watch plainLandHost) [works 0] c.1
    ⟨c.2.world.create "d/a.jpg" [3], c.2.world.next :: c.2.without "d/a.jpg"⟩).2

theorem runs_exchanged (s : Watched) :
    Config.Runs (watch plainLandHost) (Meddles "d/a.jpg") (Meddles "d/a.jpg") (fun _ => False)
      ⟨some (publishPartToFinal plainLandHost "d/a.tmp" "d/a.jpg" replaceTask.publication).run, s⟩
      ⟨none, exchanged s⟩ :=
  (runs_calls (List.replicate 2 (works 0)) _ _).trans
    (.head (.rely (.replace [3])) ((runs_calls [works 0] _ _).tail .stop))

/-- **The next attempt unlinks what the publication left at its temporary path.** -/
theorem left_unlinked : ¬replaceTask.Retains plainLandHost (fun _ _ _ => True) := by
  intro h
  have hlost := h [2] preparedStart preparedStart_begins _ _ (runs_exchanged preparedStart)
    (.inl rfl) 2 (by decide) (by decide) _
    (runsUnder_of_runs (fun _ _ _ => trivial)
      (.head (.start (.inl ⟨5, rfl⟩)) (runs_calls (List.replicate 4 (works 10)) _ _)))
  revert hlost
  decide

def unavailable : Choice := { works 0 with response := ⟨503, none, none, none⟩ }

def syncedStart : Watched := { preparedStart with world.lastSyncCompleted := some 1 }

/-- An attempt is turned away, and a cleanup passes over the file, which is new. -/
theorem retains_leftAlone_busy : ∃ w, Config.RunsUnder (answer plainLandHost) (LeftAlone "d/a.tmp")
      Waits replaceTask.Between (replaceTask.Later plainLandHost)
      ⟨none, (exchanged syncedStart).world⟩ ⟨some (.ret ()), w⟩ ∧
    w.entries "d/a.tmp" = some 2 ∧ (w.files 2).bytes = [3] := by
  have hbegins : Begins "d/a.tmp" "d/a.jpg" [2] syncedStart :=
    { preparedStart_begins with apart := preparedStart_begins.apart }
  have hturned : TurnedAway (some 1) ⟨503, none, none, none⟩ := .inl (by simp)
  have hkept (w : World) := replaceTask.retains_leftAlone plainLandHost _ _ hbegins _ _
    (runs_exchanged syncedStart) (.inl rfl) 2 (by decide) (by decide) ⟨some (.ret ()), w⟩
  refine Exists.imp (fun w hrun => ⟨hrun, hkept w hrun⟩)
    ⟨_, .head (.start (.inl ⟨5, rfl⟩)) <|
      .head (.call (works 0) trivial) <| .head (.call (works 0) trivial) <|
      .head (.call unavailable (fun _ h => by cases h; exact hturned)) <| .head .stop <|
      .head (.start (.inr ⟨"d", rfl⟩)) <|
      .head (.call (works 0) trivial) <| .head (.call (works 0) trivial) <|
      .head (.call (works 0) trivial) <|
      .head (.call (works 0) (fun _ _ h => by cases h; exact .inr (by decide))) <|
      .single (.call (works 0) trivial)⟩

end Kei.Download
