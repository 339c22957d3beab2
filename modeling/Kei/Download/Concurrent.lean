import Kei.Download.Publication

/-!
# Kei.Download.Concurrent

Attempts that run at the same time.

An attempt makes calls on its own two paths, its handle and its response only
(`Attempt.Own`), and those leave the views of the attempts apart from it alone
(`Frame.view`).  So the attempts of a pass, run interleaved, land what each of
them lands by itself, as long as their paths and files are apart.
-/

namespace Kei.Download

open Proc Relation

/-! ## the calls of an attempt -/

/-- The calls that an attempt makes. -/
def Attempt.Own (a : Attempt) : Call → Prop
  | .metadata _ | .isCancelled | .syncData _ | .readFile _ | .tryExists _ => True
  | .fetch who _ _ | .nextChunk who | .writeAll who _ | .close who => who = a.who
  | .removeFile path => path = a.partPath
  | .createNew who path | .openAppend who path => who = a.who ∧ path = a.partPath
  | .renameNoReplace source target | .hardLink source target | .renameExchange source target =>
      source = a.partPath ∧ target = a.downloadPath
  | _ => False

section own

variable {host : LandHost} {a : Attempt}

theorem own_giveUp {error : DownloadError} :
    Within a.Own (do logRemove a.partPath; throw error : Landing α) :=
  within_bind (within_bind (within_lift rfl) (fun _ => within_pure)) (fun _ => within_throw)

theorem own_checkOrRemove {condition : Bool} {error : DownloadError} :
    Within a.Own (checkOrRemove a.partPath condition error) :=
  within_ite within_pure own_giveUp

theorem own_resumeOffset : Within a.Own a.resumeOffset := by
  refine within_bind (within_lift trivial) (fun found => ?_)
  split
  · exact within_pure
  · exact within_pure

theorem own_fetch {offset : Nat} : Within a.Own (a.fetch offset) := by
  refine within_bind (within_lift rfl) (fun found => ?_)
  split
  · exact within_pure
  · exact within_throw

variable {response : DownloadResponse}

theorem own_startOf {offset : Nat} : Within a.Own (Attempt.startOf offset response) :=
  within_ite within_pure (within_ite within_pure within_throw)

theorem own_checkContentType : Within a.Own (a.checkContentType response) := by
  unfold Attempt.checkContentType
  split
  · exact within_pure
  · exact own_giveUp

theorem own_checkRange {start : Start} : Within a.Own (a.checkRange response start) := by
  cases start with
  | restart => exact within_pure
  | resume offset =>
      refine within_bind ?_ (fun _ => ?_)
      · cases validateResumeContentRange response.contentRange offset with
        | ok _ => exact within_pure
        | error _ => exact within_throw
      · split
        · exact own_checkOrRemove
        · exact within_pure

theorem own_openPart {start : Start} : Within a.Own (a.openPart start) := by
  cases start with
  | restart =>
      refine within_bind (within_bind (within_lift rfl) (fun _ => within_pure)) (fun _ =>
        within_bind (within_lift ⟨rfl, rfl⟩) (fun r => ?_))
      cases r with
      | opened => exact within_pure
      | alreadyExists => exact within_throw
      | failed => exact within_throw
  | resume offset =>
      refine within_bind (within_lift ⟨rfl, rfl⟩) (fun r => ?_)
      cases r with
      | true => exact within_pure
      | false => exact within_throw

theorem own_checkCancelled {bytesWritten : Nat} :
    Within a.Own (a.checkCancelled bytesWritten) := by
  refine within_ite (within_bind (within_lift trivial) (fun r => ?_)) within_pure
  cases r with
  | true => exact within_throw
  | false => exact within_pure

theorem own_syncPart : Within a.Own a.syncPart := by
  refine within_bind (within_lift trivial) (fun r => ?_)
  cases r with
  | true => exact within_pure
  | false => exact within_throw

theorem own_streamBody (fuel written : Nat) :
    Within a.Own (a.streamBody response fuel written) := by
  induction fuel generalizing written with
  | zero => exact trivial
  | succ fuel ih =>
      refine within_bind own_checkCancelled (fun _ => within_bind (within_lift rfl) (fun r => ?_))
      cases r with
      | broken => exact within_throw
      | finished => exact within_bind own_syncPart (fun _ => within_pure)
      | data chunk =>
          refine within_bind (within_lift rfl) (fun r => ?_)
          cases r with
          | true => exact ih _
          | false => exact within_throw

theorem own_closePart {result : Except DownloadError Nat} :
    Within a.Own (a.closePart result) := by
  refine within_bind (within_lift rfl) (fun _ => ?_)
  cases result with
  | ok n => exact within_pure
  | error e => exact within_bind own_checkOrRemove (fun _ => within_throw)

theorem own_checkSize {expected : Option Nat} {received : Nat} :
    Within a.Own (a.checkSize expected received) := by
  cases expected with
  | none => exact within_pure
  | some expected => exact own_checkOrRemove

theorem own_validatePart : Within a.Own a.validatePart := by
  refine within_bind (within_lift trivial) (fun r => ?_)
  cases r with
  | none => exact own_giveUp
  | some bytes =>
      simp only
      split
      · exact within_pure
      · exact own_giveUp

theorem own_fill (fuel : Nat) : Within a.Own (a.fill fuel) :=
  within_bind own_resumeOffset fun _ =>
    within_bind own_fetch fun _ =>
    within_bind own_startOf fun _ =>
    within_bind own_checkContentType fun _ =>
    within_bind own_checkRange fun _ =>
    within_bind own_openPart fun _ =>
    within_bind (within_try (own_streamBody _ _)) fun _ =>
    within_bind own_closePart fun _ =>
    within_bind own_checkCancelled fun _ =>
    within_bind own_checkSize fun _ =>
    within_bind own_checkSize fun _ =>
    within_bind own_validatePart fun _ => within_pure

theorem own_look (path : Path) : a.Own (.readFile path) ∧ a.Own (.tryExists path) :=
  ⟨trivial, trivial⟩

theorem own_ensure {condition : Bool} {error : PublishError} :
    Within a.Own (ensure condition error) := within_ite within_pure within_throw

theorem own_exchangeRepairFiles {expected : ExistingFileFingerprint} :
    Only a.Own (fun r => ∀ displaced, r = .ok displaced → displaced = a.partPath)
      (exchangeRepairFiles host a.partPath a.downloadPath expected).run := by
  have hfailed : Only a.Own (fun r => ∀ displaced, r = .ok displaced → displaced = a.partPath)
      (exchangeFailed host a.downloadPath expected).run := by
    refine only_bind (within_lift trivial) (fun r _ => ?_)
    rcases r with _ | r
    · exact fun _ h => nomatch h
    · cases r with
      | none => exact fun _ h => nomatch h
      | some bytes =>
          refine only_ite (fun _ _ h => nomatch h) (fun _ _ h => nomatch h)
  refine only_bind (within_lift ⟨rfl, rfl⟩) (fun r _ => ?_)
  rcases r with _ | r
  · exact fun _ h => nomatch h
  · cases r with
    | renamed => exact fun displaced h => (Except.ok.inj h).symm
    | notFound => exact fun _ h => nomatch h
    | alreadyExists => exact hfailed
    | unsupported => exact hfailed
    | failed => exact hfailed

variable {displaced : Path}

theorem own_restore {replacement : ExistingFileFingerprint} :
    Within a.Own
      (restoreRepairTargetIfUnchanged host a.partPath a.downloadPath displaced replacement) := by
  refine within_bind (within_lift trivial) (fun r => ?_)
  cases r with
  | none => exact within_pure
  | some bytes =>
      refine within_ite (within_adapt (within_bind (within_lift ⟨rfl, rfl⟩) (fun r => ?_)))
        within_pure
      cases r with
      | renamed =>
          exact within_bind (within_fingerprint own_look) (fun _ => within_bind own_ensure
            (fun _ => within_pure))
      | notFound | alreadyExists | unsupported | failed => exact within_throw

theorem own_giveBack {replacement : ExistingFileFingerprint} {cause error : PublishError} :
    Within a.Own
      (giveBack host a.partPath a.downloadPath displaced replacement cause error) := by
  refine within_bind (within_adapt own_restore) (fun r => ?_)
  cases r with
  | true => exact within_throw
  | false => exact within_throw

theorem own_checkDisplaced {expected replacement : ExistingFileFingerprint} :
    Within a.Own
      (checkDisplaced host a.partPath a.downloadPath displaced expected replacement) := by
  refine within_bind (within_lift trivial) (fun r => ?_)
  cases r with
  | none => exact own_giveBack
  | some bytes => exact within_ite within_pure own_giveBack

theorem own_replaceFileIfUnchanged {expected : ExistingFileFingerprint} :
    Within a.Own (replaceFileIfUnchanged host a.partPath a.downloadPath expected none) := by
  refine within_bind (within_adapt (within_fingerprint own_look)) fun _ =>
    within_bind own_ensure fun _ =>
    within_bind (within_adapt (within_fingerprint own_look)) fun _ =>
    within_bind own_ensure fun _ =>
    within_bind_only own_exchangeRepairFiles fun displaced hdisplaced => ?_
  subst hdisplaced
  exact within_bind within_pure fun _ => within_bind own_checkDisplaced fun _ =>
    within_bind (within_lift rfl) fun _ => within_pure

theorem own_publish : Within a.Own (publish host a.partPath a.downloadPath a.publication) := by
  refine within_adapt ?_
  cases a.publication with
  | replaceTruncated expected => exact own_replaceFileIfUnchanged
  | noReplace => exact within_noReplace own_look rfl ⟨rfl, rfl⟩ ⟨rfl, rfl⟩

/-- **An attempt makes calls on what is its own.** -/
theorem own_run (fuel : Nat) : Within a.Own (a.run host fuel) :=
  within_bind (own_fill fuel) (fun _ =>
    within_ite within_pure (within_bind own_publish (fun _ => within_pure)))

end own

/-! ## what the calls leave alone -/

/-- The files that an attempt can get at. -/
def Attempt.Names (a : Attempt) (w : World) (inode : Nat) : Prop :=
  w.entries a.partPath = some inode ∨ w.entries a.downloadPath = some inode ∨
    w.handles a.who = some inode

/-- Nothing changes but what is the attempt's own, or new. -/
structure Frame (a : Attempt) (w w' : World) : Prop where
  entries : ∀ path, path ≠ a.partPath → path ≠ a.downloadPath → w'.entries path = w.entries path
  handles : ∀ who, who ≠ a.who → w'.handles who = w.handles who
  streams : ∀ who, who ≠ a.who → w'.streams who = w.streams who
  files : ∀ i, i < w.next → w.handles a.who ≠ some i → w'.files i = w.files i
  names : ∀ i, a.Names w' i → a.Names w i ∨ (w.next ≤ i ∧ i < w'.next)
  next : w.next ≤ w'.next
  now : w.now ≤ w'.now

section frame

variable {host : LandHost} {a b : Attempt} {w w' : World} {call : Call} {c : Choice}

theorem Frame.refl : Frame a w w where
  entries _ _ _ := rfl
  handles _ _ := rfl
  streams _ _ := rfl
  files _ _ _ := rfl
  names _ h := .inl h
  next := Nat.le_refl _
  now := Int.le_refl _

theorem frame_entries {entries : Path → Option Nat}
    (hothers : ∀ path, path ≠ a.partPath → path ≠ a.downloadPath → entries path = w.entries path)
    (hpart : ∀ i, entries a.partPath = some i → a.Names w i)
    (hfinal : ∀ i, entries a.downloadPath = some i → a.Names w i) :
    Frame a w { w with entries := entries } where
  entries := hothers
  handles _ _ := rfl
  streams _ _ := rfl
  files _ _ _ := rfl
  names i h := by
    rcases h with h | h | h
    · exact .inl (hpart i h)
    · exact .inl (hfinal i h)
    · exact .inl (.inr (.inr h))
  next := Nat.le_refl _
  now := Int.le_refl _

theorem frame_handle {handle : Option Nat} (h : ∀ i, handle = some i → a.Names w i) :
    Frame a w { w with handles := Function.update w.handles a.who handle } where
  entries _ _ _ := rfl
  handles who hwho := by simp [hwho]
  streams _ _ := rfl
  files _ _ _ := rfl
  names i hnames := by
    rcases hnames with hpart | hfinal | hhandle
    · exact .inl (.inl hpart)
    · exact .inl (.inr (.inl hfinal))
    · exact .inl (h i (by simpa using hhandle))
  next := Nat.le_refl _
  now := Int.le_refl _

theorem frame_stream {body : Content} :
    Frame a w { w with streams := Function.update w.streams a.who body } where
  entries _ _ _ := rfl
  handles _ _ := rfl
  streams who hwho := by simp [hwho]
  files _ _ _ := rfl
  names _ h := .inl h
  next := Nat.le_refl _
  now := Int.le_refl _

theorem frame_write {inode : Nat} {file : File} (h : w.handles a.who = some inode) :
    Frame a w (w.setFile inode file) where
  entries _ _ _ := rfl
  handles _ _ := rfl
  streams _ _ := rfl
  files i _ hi := by
    have hne : i ≠ inode := by
      rintro rfl
      exact hi h
    simp [World.setFile, hne]
  names _ h := .inl h
  next := Nat.le_refl _
  now := Int.le_refl _

theorem frame_create {bytes : Content} :
    Frame a w { w.create a.partPath bytes with
      handles := Function.update w.handles a.who (some w.next) } where
  entries path hpart _ := by simp [World.create, World.setEntry, World.setFile, hpart]
  handles who hwho := by simp [hwho]
  streams _ _ := rfl
  files i hi _ := by
    have hne : i ≠ w.next := by omega
    simp [World.create, World.setEntry, World.setFile, hne]
  names i h := by
    have hnew : i = w.next ∨ a.Names w i := by
      rcases h with h | h | h
      · left
        simpa [World.create, World.setEntry, World.setFile] using h.symm
      · by_cases hsame : a.downloadPath = a.partPath
        · left
          simpa [World.create, World.setEntry, World.setFile, hsame] using h.symm
        · right
          exact .inr (.inl (by
            simpa [World.create, World.setEntry, World.setFile, hsame] using h))
      · left
        simpa using h.symm
    rcases hnew with rfl | hold
    · right
      simp [World.create]
    · exact .inl hold
  next := by simp [World.create]
  now := Int.le_refl _

theorem act_frame (h : a.Own call) : Frame a w (act host w call c).2 := by
  cases call with
  | metadata | isCancelled | syncData | readFile | tryExists => exact Frame.refl
  | fetch who server resumeFrom =>
      obtain rfl : who = a.who := h
      simp only [act, fetchAnswer]
      split
      · exact Frame.refl
      · exact frame_stream
  | nextChunk who =>
      obtain rfl : who = a.who := h
      simp only [act, nextChunkAnswer]
      split
      · exact Frame.refl
      · split
        · exact Frame.refl
        · exact frame_stream
  | writeAll who chunk =>
      obtain rfl : who = a.who := h
      simp only [act, writeAnswer]
      split
      · exact Frame.refl
      · next hhandle => exact frame_write hhandle
  | close who =>
      obtain rfl : who = a.who := h
      exact frame_handle (fun i h => by simp at h)
  | removeFile path =>
      obtain rfl : path = a.partPath := h
      simp only [act, removeAnswer, World.setEntry]
      split
      · exact Frame.refl
      · split
        · exact Frame.refl
        · refine frame_entries (fun path hpart _ => by simp [hpart]) (fun i h => by simp at h)
            (fun i h => ?_)
          by_cases hsame : a.downloadPath = a.partPath
          · simp [hsame] at h
          · exact .inr (.inl (by simpa [hsame] using h))
  | createNew who path =>
      obtain ⟨rfl, rfl⟩ : who = a.who ∧ path = a.partPath := h
      simp only [act, createAnswer]
      split
      · exact Frame.refl
      · split
        · exact Frame.refl
        · exact frame_create
  | openAppend who path =>
      obtain ⟨rfl, rfl⟩ : who = a.who ∧ path = a.partPath := h
      simp only [act, openAppendAnswer]
      split
      · exact Frame.refl
      · split
        · exact Frame.refl
        · next inode hentry =>
          refine frame_handle (fun i h => .inl ?_)
          rw [hentry, h]
  | renameNoReplace source target =>
      obtain ⟨rfl, rfl⟩ : source = a.partPath ∧ target = a.downloadPath := h
      simp only [act, renameNoReplaceAnswer, World.setEntry]
      split
      · exact Frame.refl
      · split
        · exact Frame.refl
        · split
          · exact Frame.refl
          · split
            · exact Frame.refl
            · refine frame_entries (fun path hpart hfinal => by simp [hpart, hfinal])
                (fun i h => ?_) (fun i h => .inl (by simpa using h))
              by_cases hsame : a.partPath = a.downloadPath
              · exact .inl (by simpa [hsame] using h)
              · simp [hsame] at h
  | hardLink source target =>
      obtain ⟨rfl, rfl⟩ : source = a.partPath ∧ target = a.downloadPath := h
      simp only [act, hardLinkAnswer, World.setEntry]
      split
      · exact Frame.refl
      · split
        · exact Frame.refl
        · refine frame_entries (fun path _ hfinal => by simp [hfinal]) (fun i h => ?_)
            (fun i h => .inl (by simpa using h))
          by_cases hsame : a.partPath = a.downloadPath
          · exact .inl (by simpa [hsame] using h)
          · exact .inl (by simpa [hsame] using h)
  | renameExchange source target =>
      obtain ⟨rfl, rfl⟩ : source = a.partPath ∧ target = a.downloadPath := h
      simp only [act, exchangeAnswer, World.setEntry]
      split
      · exact Frame.refl
      · split
        · exact Frame.refl
        · split
          · exact Frame.refl
          · refine frame_entries (fun path hpart hfinal => by simp [hpart, hfinal])
              (fun i h => ?_) (fun i h => .inl (by simpa using h))
            by_cases hsame : a.partPath = a.downloadPath
            · exact .inl (by simpa [hsame] using h)
            · exact .inr (.inl (by simpa [hsame] using h))
  | _ => exact h.elim

theorem answer_frame (h : a.Own call) : Frame a w (answer host w call c).2 := by
  have hframe : Frame a (w.later c.elapsed) (answer host w call c).2 := act_frame h
  refine ⟨hframe.entries, hframe.handles, hframe.streams, hframe.files, hframe.names, hframe.next,
    Int.le_trans ?_ hframe.now⟩
  show w.now ≤ w.now + c.elapsed
  omega

/-- Two attempts with nothing in common. -/
structure Separate (a b : Attempt) : Prop where
  who : a.who ≠ b.who
  parts : a.partPath ≠ b.partPath
  partFinal : a.partPath ≠ b.downloadPath
  finalPart : a.downloadPath ≠ b.partPath
  finals : a.downloadPath ≠ b.downloadPath

theorem Frame.names_other (h : Frame a w w') (hseparate : Separate a b) (i : Nat) :
    b.Names w' i ↔ b.Names w i := by
  unfold Attempt.Names
  rw [h.entries b.partPath hseparate.parts.symm hseparate.finalPart.symm,
    h.entries b.downloadPath hseparate.partFinal.symm hseparate.finals.symm,
    h.handles b.who hseparate.who.symm]

/-- **What an attempt does to its own leaves the view of another alone.** -/
theorem Frame.view (h : Frame a w w') (hseparate : Separate a b)
    (hapart : ∀ i, b.Names w i → ¬a.Names w i) (hbound : ∀ i, b.Names w i → i < w.next) :
    b.view w' = b.view w := by
  have hpart := h.entries b.partPath hseparate.parts.symm hseparate.finalPart.symm
  have hfinal := h.entries b.downloadPath hseparate.partFinal.symm hseparate.finals.symm
  have hhandle := h.handles b.who hseparate.who.symm
  have hfile : ∀ i, b.Names w i → w'.files i = w.files i := by
    intro i hi
    exact h.files i (hbound i hi) (fun hopen => hapart i hi (.inr (.inr hopen)))
  have hpartFile : (w.entries b.partPath).map w'.files = (w.entries b.partPath).map w.files := by
    cases hentry : w.entries b.partPath with
    | none => rfl
    | some i => simp [hfile i (.inl hentry)]
  have hfinalFile : (w.entries b.downloadPath).map w'.files =
      (w.entries b.downloadPath).map w.files := by
    cases hentry : w.entries b.downloadPath with
    | none => rfl
    | some i => simp [hfile i (.inr (.inl hentry))]
  have hhandleFile : (w.handles b.who).map w'.files = (w.handles b.who).map w.files := by
    cases hentry : w.handles b.who with
    | none => rfl
    | some i => simp [hfile i (.inr (.inr hentry))]
  have hmap : ∀ {α : Type} (f : File → α) (entry : Option Nat),
      entry.map w'.files = entry.map w.files →
      entry.map (fun i => f (w'.files i)) = entry.map (fun i => f (w.files i)) := by
    intro α f entry hentry
    cases entry with
    | none => rfl
    | some i =>
        have hsame : w'.files i = w.files i := by simpa using hentry
        simp [hsame]
  unfold Attempt.view World.bytesAt
  rw [hpart, hfinal, hhandle, h.streams b.who hseparate.who.symm, hmap _ _ hpartFile,
    hmap _ _ hfinalFile, hmap _ _ hhandleFile, hmap _ _ hpartFile]

end frame

/-! ## a pass -/

/-- An attempt of a pass, with the content that its server has. -/
structure PassTask (host : LandHost) (tempSuffix : String) where
  attempt : Attempt
  checksum : String
  content : Content
  tempPath : tempDownloadPath host attempt.downloadPath checksum tempSuffix = .ok attempt.partPath
  serves : attempt.server = .of content

/-- The attempts of a pass, and what they start from. -/
structure Pass (host : LandHost) (tempSuffix : String) where
  tasks : List (PassTask host tempSuffix)
  start : World
  finals : tasks.Pairwise (fun s t => s.attempt.downloadPath ≠ t.attempt.downloadPath)
  handles : tasks.Pairwise (fun s t => s.attempt.who ≠ t.attempt.who)
  closed : ∀ t ∈ tasks, start.handles t.attempt.who = none
  bounded : ∀ path i, start.entries path = some i → i < start.next

namespace Pass

variable {host : LandHost} {tempSuffix : String} (pass : Pass host tempSuffix)

def pool (fuel : Nat) : Pool Call Resp World (Except DownloadError Downloaded) :=
  ⟨pass.tasks.map (fun t => (t.attempt.run host fuel).run), pass.start, []⟩

/-- After the calls of a schedule. -/
def after (fuel : Nat) (schedule : List (Nat × Choice)) :
    Pool Call Resp World (Except DownloadError Downloaded) :=
  Pool.run (answer host) (pass.pool fuel) schedule

/-- What an attempt has landed: the file at its final path, or the temporary file that its
    caller is to publish. -/
def landed (t : PassTask host tempSuffix) (w : World) : Option Content :=
  if t.attempt.skipRename then w.bytesAt t.attempt.partPath
  else w.bytesAt t.attempt.downloadPath

/-- The temporary file that an attempt has open stays as it is. -/
def SparesOpen (a : Attempt) (w w' : World) : Prop :=
  ∀ inode, w.handles a.who = some inode →
    w'.handles a.who = some inode ∧ w'.entries a.partPath = w.entries a.partPath ∧
      (w'.files inode).bytes = (w.files inode).bytes

/-- An attempt that returns has landed its own content, and no attempt touches the temporary
    file that another is writing. -/
def LandsOwn (fuel : Nat) : Prop :=
  ∀ schedule,
    (∀ (i : Nat) t downloaded, pass.tasks[i]? = some t →
      (pass.after fuel schedule).procs[i]? = some (.ret (.ok downloaded)) →
        landed t (pass.after fuel schedule).shared = some t.content) ∧
    ∀ (i : Nat) t c, pass.tasks[i]? = some t → c.1 ≠ i →
      SparesOpen t.attempt (pass.after fuel schedule).shared
        (pass.after fuel (schedule ++ [c])).shared

/-- The paths and the files of the attempts are apart, and what is left at a temporary path
    does not pass for something else. -/
structure Apart : Prop where
  parts : pass.tasks.Pairwise (fun s t => s.attempt.partPath ≠ t.attempt.partPath)
  partFinal : ∀ s ∈ pass.tasks, ∀ t ∈ pass.tasks, s.attempt.partPath ≠ t.attempt.downloadPath
  files : pass.tasks.Pairwise (fun s t =>
    ∀ i, s.attempt.Names pass.start i → ¬t.attempt.Names pass.start i)
  leftovers : ∀ t ∈ pass.tasks, ∀ bytes, pass.start.bytesAt t.attempt.partPath = some bytes →
    Fine t.content (Sane t.attempt.downloadPath t.content) bytes ∨
      StaleSince (some pass.start.now) (t.attempt.view pass.start).partMtime

/-- What an attempt relies on. -/
def rely (i : Nat) (w w' : World) : Prop :=
  ∀ t, pass.tasks[i]? = some t → t.attempt.view w' = t.attempt.view w ∧ w.now ≤ w'.now

/-- The files of different attempts are apart, and older than the next one. -/
def Disjoint (w : World) : Prop :=
  (∀ (i : Nat) s, pass.tasks[i]? = some s → ∀ n, s.attempt.Names w n → n < w.next) ∧
    ∀ (i j : Nat) s t, i ≠ j → pass.tasks[i]? = some s → pass.tasks[j]? = some t →
      ∀ n, s.attempt.Names w n → ¬t.attempt.Names w n

variable {pass}

theorem sparesOpen_of_view {a : Attempt} {w w' : World} (h : a.view w' = a.view w) :
    SparesOpen a w w' := by
  intro inode hopen
  have hhandle : w'.handles a.who = w.handles a.who := congrArg View.handle h
  have hpart : w'.entries a.partPath = w.entries a.partPath := congrArg View.part h
  have hbytes : (w'.handles a.who).map (fun i => (w'.files i).bytes) =
      (w.handles a.who).map (fun i => (w.files i).bytes) := congrArg View.handleBytes h
  rw [hopen] at hhandle
  rw [hhandle, hopen] at hbytes
  exact ⟨hhandle, hpart, by simpa using hbytes⟩

theorem pairwise_getElem? {α : Type} {R : α → α → Prop} (hsymm : ∀ x y, R x y → R y x)
    {l : List α} (h : l.Pairwise R) {i j : Nat} {x y : α} (hne : i ≠ j) (hi : l[i]? = some x)
    (hj : l[j]? = some y) : R x y := by
  obtain ⟨hlt, rfl⟩ := List.getElem?_eq_some_iff.mp hi
  obtain ⟨hlt', rfl⟩ := List.getElem?_eq_some_iff.mp hj
  rw [List.pairwise_iff_getElem] at h
  rcases Nat.lt_or_gt_of_ne hne with hij | hji
  · exact h i j hlt hlt' hij
  · exact hsymm _ _ (h j i hlt' hlt hji)

theorem Apart.separate (h : pass.Apart) {i j : Nat} {s t : PassTask host tempSuffix}
    (hne : i ≠ j) (hs : pass.tasks[i]? = some s) (ht : pass.tasks[j]? = some t) :
    Separate s.attempt t.attempt where
  who := pairwise_getElem? (fun _ _ => Ne.symm) pass.handles hne hs ht
  parts := pairwise_getElem? (fun _ _ => Ne.symm) h.parts hne hs ht
  partFinal := h.partFinal s (List.mem_of_getElem? hs) t (List.mem_of_getElem? ht)
  finalPart := (h.partFinal t (List.mem_of_getElem? ht) s (List.mem_of_getElem? hs)).symm
  finals := pairwise_getElem? (fun _ _ => Ne.symm) pass.finals hne hs ht

theorem Apart.harmony (h : pass.Apart) :
    Pool.Harmony (answer host) pass.rely
      (fun i op => ∃ t, pass.tasks[i]? = some t ∧ t.attempt.Own op) pass.Disjoint where
  keep := by
    rintro i w op c ⟨t, ht, hown⟩ ⟨hbound, hdisjoint⟩
    have hframe : Frame t.attempt w (answer host w op c).2 := answer_frame hown
    have hnames : ∀ (j : Nat) s, pass.tasks[j]? = some s → ∀ n,
        s.attempt.Names (answer host w op c).2 n →
          s.attempt.Names w n ∨ (j = i ∧ w.next ≤ n ∧ n < (answer host w op c).2.next) := by
      intro j s hs n hn
      by_cases hj : j = i
      · subst hj
        cases hs.symm.trans ht
        exact (hframe.names n hn).imp id (fun hnew => ⟨rfl, hnew⟩)
      · exact .inl ((hframe.names_other (h.separate (Ne.symm hj) ht hs) n).mp hn)
    refine ⟨fun j s hs n hn => ?_, fun j k s s' hne hs hs' n hn hn' => ?_⟩
    · rcases hnames j s hs n hn with hold | ⟨-, -, hnew⟩
      · exact Nat.lt_of_lt_of_le (hbound j s hs n hold) hframe.next
      · exact hnew
    · rcases hnames j s hs n hn with hold | ⟨rfl, hge, -⟩
      · rcases hnames k s' hs' n hn' with hold' | ⟨-, hge, -⟩
        · exact hdisjoint j k s s' hne hs hs' n hold hold'
        · have hlt := hbound j s hs n hold
          omega
      · rcases hnames k s' hs' n hn' with hold' | ⟨rfl, -, -⟩
        · have hlt := hbound k s' hs' n hold'
          omega
        · exact hne rfl
  others := by
    rintro i j w op c hne ⟨t, ht, hown⟩ ⟨hbound, hdisjoint⟩ s hs
    have hframe : Frame t.attempt w (answer host w op c).2 := answer_frame hown
    exact ⟨hframe.view (h.separate hne ht hs) (hdisjoint j i s t (Ne.symm hne) hs ht)
      (hbound j s hs), hframe.now⟩

theorem Apart.disjoint (h : pass.Apart) : pass.Disjoint pass.start := by
  refine ⟨fun i s hs n hn => ?_, fun i j s t hne hs ht n hn hn' => ?_⟩
  · rcases hn with hpart | hfinal | hhandle
    · exact pass.bounded _ n hpart
    · exact pass.bounded _ n hfinal
    · rw [pass.closed s (List.mem_of_getElem? hs)] at hhandle
      contradiction
  · have hsymm : ∀ s t : PassTask host tempSuffix,
        (∀ n, s.attempt.Names pass.start n → ¬t.attempt.Names pass.start n) →
          ∀ n, t.attempt.Names pass.start n → ¬s.attempt.Names pass.start n :=
      fun s t hst n hn hn' => hst n hn' hn
    exact pairwise_getElem? hsymm h.files hne hs ht n hn hn'

/-- What a task is to land. -/
def aim (pass : Pass host tempSuffix) (t : PassTask host tempSuffix) : Aim where
  content := t.content
  mayResume := Sane t.attempt.downloadPath t.content
  mayReturn _ := False
  since := some pass.start.now

theorem Apart.good (h : pass.Apart) {t : PassTask host tempSuffix} (ht : t ∈ pass.tasks) :
    View.Good (pass.aim t) (t.attempt.view pass.start) where
  part := h.leftovers t ht
  opened i _ hhandle := by
    have hclosed : pass.start.handles t.attempt.who = some i := hhandle
    rw [pass.closed t ht] at hclosed
    contradiction
  final _ _ hreturn := hreturn.elim

theorem Apart.allSafe (h : pass.Apart) (fuel : Nat) :
    Pool.AllSafe (answer host) pass.rely
      (fun i op => ∃ t, pass.tasks[i]? = some t ∧ t.attempt.Own op)
      (fun i r w => ∀ t downloaded, pass.tasks[i]? = some t → r = .ok downloaded →
        landed t w = some t.content) (pass.pool fuel) := by
  intro i p hp
  obtain ⟨t, ht, rfl⟩ : ∃ t, pass.tasks[i]? = some t ∧ (t.attempt.run host fuel).run = p := by
    simpa [pool] using hp
  have hmem := List.mem_of_getElem? ht
  have hrely : t.attempt.Undisturbed (pass.rely i) := fun w w' hstep => hstep t ht
  have hlands : Lands host t.attempt (pass.rely i) (some pass.start.now) (fun _ => True)
      (View.Good (pass.aim t)) (t.attempt.run host fuel)
      (fun downloaded v => downloaded.content = t.content ∧
        (t.attempt.skipRename = true → View.Good (pass.aim t) v ∧ Complete (pass.aim t) v) ∧
        (t.attempt.skipRename = false → Published t.attempt t.content v)) :=
    lands_run (pass.aim t) hrely t.serves resumable_sane (fun _ _ => trivial) kept_true fuel
  have hstart : Since (some pass.start.now) pass.start := fun s hs =>
    Int.le_of_eq (Option.some.inj hs).symm
  refine ⟨safe_weaken (fun _ _ => trivial) (safe_mono ?_
    (hlands pass.start ⟨⟨hstart, trivial⟩, h.good hmem⟩)), ?_⟩
  · rintro r w hr t' downloaded ht' rfl
    cases ht'.symm.trans ht
    obtain ⟨-, -, hkept, hpublished⟩ := hr
    unfold landed
    cases hskip : t.attempt.skipRename with
    | true => exact (hkept hskip).2.2
    | false => exact hpublished hskip (h.partFinal t hmem t hmem)
  · exact only_mono (fun op hown => ⟨t, ht, hown⟩) (fun _ h => h) (own_run fuel)

/-- **Attempts that are apart land what is their own.** -/
theorem Apart.landsOwn (h : pass.Apart) (fuel : Nat) : pass.LandsOwn fuel := by
  intro schedule
  have hrun := Pool.run_safe h.harmony h.disjoint (h.allSafe fuel) schedule
  refine ⟨fun i t downloaded ht hreturned => ?_, fun i t c ht hne => ?_⟩
  · exact ((hrun.2 i _ hreturned).1 _ .refl).2 t downloaded ht rfl
  · have hafter : pass.after fuel (schedule ++ [c]) =
        Pool.step (answer host) (pass.after fuel schedule) c := by
      unfold after Pool.run
      rw [List.foldl_append]
      rfl
    have hview := Pool.AllSafe.step_others h.harmony hrun.1 hrun.2 hne
      (fun w s _ => ⟨rfl, Int.le_refl _⟩) t ht
    rw [hafter]
    exact sparesOpen_of_view hview.1

end Pass

/-! ## two downloads in one directory -/

/-- A download of four bytes to a path in one directory. -/
def smallTask (who : Nat) (name checksum : String)
    (h : tempDownloadPath plainLandHost ("d/" ++ name) checksum ".part" =
      .ok ("d/" ++ checksum ++ ".part")) : PassTask plainLandHost ".part" where
  attempt :=
    { who := who
      server := .of [0xFF, 0xD8, 1, 2]
      downloadPath := "d/" ++ name
      partPath := "d/" ++ checksum ++ ".part"
      skipRename := false
      expectedSize := some 4
      publication := .noReplace
      hasShutdownToken := false }
  checksum := checksum
  content := [0xFF, 0xD8, 1, 2]
  tempPath := h
  serves := rfl

/-- Two files with different checksums, of which the first was begun before. -/
def apartPass : Pass plainLandHost ".part" where
  tasks := [smallTask 0 "a.jpg" "K" (by decide), smallTask 1 "b.jpg" "L" (by decide)]
  start := emptyWorld.create "d/K.part" [0xFF, 0xD8]
  finals := by decide
  handles := by decide
  closed _ _ := rfl
  bounded path i h := by
    by_cases hpath : path = "d/K.part"
    · simp [World.create, World.setEntry, World.setFile, hpath] at h
      simp [World.create, ← h]
    · simp [World.create, World.setEntry, World.setFile, hpath, emptyWorld] at h

theorem apartPass_apart : apartPass.Apart where
  parts := by decide
  partFinal := by decide
  files := by
    refine List.pairwise_pair.mpr (fun i _ h => ?_)
    rcases h with h | h | h <;> exact nomatch h
  leftovers t ht bytes hbytes := by
    left
    rcases List.mem_pair.mp ht with rfl | rfl
    · cases hbytes
      decide
    · exact nomatch hbytes

/-- Whatever the order of their calls. -/
theorem apartPass_landsOwn : apartPass.LandsOwn 5 :=
  Pass.Apart.landsOwn apartPass_apart 5

/-- Two copies of one file, with one checksum. -/
def twinPass : Pass plainLandHost ".part" where
  tasks := [smallTask 0 "a.jpg" "K" (by decide), smallTask 1 "b.jpg" "K" (by decide)]
  start := emptyWorld
  finals := by decide
  handles := by decide
  closed _ _ := rfl
  bounded _ _ h := nomatch h

/-- The second download replaces the temporary file of the first after its last byte. -/
def twinSchedule : List (Nat × Choice) :=
  [(1, works 0), (1, works 0)] ++ List.replicate 9 (0, works 10) ++
    [(1, works 0), (1, works 0), (1, works 3), (1, works 0), (0, works 0), (0, works 0)]

/-- **Downloads with one checksum in one directory do not land their own.** -/
theorem twin_clobbers : ¬twinPass.LandsOwn 5 := by
  intro h
  have hlanded := (h twinSchedule).1 0 _ ⟨4, [0xFF, 0xD8, 1]⟩ rfl rfl
  revert hlanded
  decide

end Kei.Download
