import Kei.Download.File

/-!
# Kei.Download.Attempts

What an attempt makes of the temporary file that it finds.

A resumed body is put behind the bytes that are there, so all depends on what
becomes of them when the rest of the content follows: `Sane` bytes are
completed to the content or fail the check.  An attempt looks at its own two
paths, its handle and its response only; that is its `View`, and it lands as
long as its surroundings leave the view alone.
-/

namespace Kei.Download

open Proc Relation

/-! ## what a resumed transfer makes of what it finds -/

section completion

variable (path : Path) (content : Content)

/-- The bytes with the rest of the content behind them. -/
def completion (bytes : Content) : Content := bytes ++ content.drop bytes.length

/-- Completed, the bytes are the content, or they do not pass the check. -/
def Sane (bytes : Content) : Prop :=
  validateDownloadedContent (completion content bytes) path = .ok () →
    completion content bytes = content

instance (bytes : Content) : Decidable (Sane path content bytes) :=
  inferInstanceAs (Decidable (_ → _))

/-- More of the content may be put behind bytes in `K`, and all of it makes the content of
    them or fails the check. -/
structure Resumable (K : Content → Prop) : Prop where
  nil : K []
  append : ∀ bytes count, K bytes → K (bytes ++ (content.drop bytes.length).take count)
  sound : ∀ bytes, K bytes → content.length ≤ bytes.length →
    validateDownloadedContent bytes path = .ok () → bytes = content

/-- A temporary file with these bytes is in `K` if a transfer of the content resumes it. -/
def Fine (K : Content → Prop) (bytes : Content) : Prop :=
  bytes ≠ [] → bytes.length < content.length → K bytes

instance (K : Content → Prop) [DecidablePred K] (bytes : Content) :
    Decidable (Fine content K bytes) :=
  inferInstanceAs (Decidable (_ → _ → _))

variable {path content}

theorem completion_of_length_le {bytes : Content} (h : content.length ≤ bytes.length) :
    completion content bytes = bytes := by
  simp [completion, List.drop_of_length_le h]

theorem completion_append {bytes : Content} (count : Nat) :
    completion content (bytes ++ (content.drop bytes.length).take count) =
      completion content bytes := by
  unfold completion
  rw [List.append_assoc, List.length_append, ← List.drop_drop]
  congr 1
  conv_rhs => rw [← List.take_append_drop count (content.drop bytes.length)]
  congr 1
  rw [List.length_take]
  by_cases h : count ≤ (content.drop bytes.length).length
  · rw [Nat.min_eq_left h]
  · rw [Nat.min_eq_right (by omega), List.drop_length, List.drop_of_length_le (by omega)]

theorem resumable_sane : Resumable path content (Sane path content) where
  nil := by
    intro _
    simp [completion]
  append bytes count h := by
    unfold Sane at *
    rwa [completion_append]
  sound bytes h hlength hcheck := by
    have hcompletion := completion_of_length_le hlength
    unfold Sane at h
    rw [hcompletion] at h
    exact h hcheck

theorem resumable_front : Resumable path content (fun bytes => bytes <+: content) where
  nil := List.nil_prefix
  append bytes count h := by
    obtain ⟨rest, rfl⟩ := h
    rw [List.drop_left]
    exact (List.prefix_append_right_inj bytes).mpr (List.take_prefix count rest)
  sound bytes h hlength _ := h.eq_of_length_le hlength

theorem drop_take_length (written count : Nat) :
    (content.drop written).drop count =
      content.drop (written + ((content.drop written).take count).length) := by
  rw [List.drop_drop, List.length_take, List.length_drop]
  by_cases h : written + count ≤ content.length
  · rw [Nat.min_eq_left (by omega)]
  · rw [List.drop_of_length_le (by omega), List.drop_of_length_le (by omega)]

theorem fine_of_long {K : Content → Prop} {bytes : Content}
    (h : content.length ≤ bytes.length) : Fine content K bytes := fun _ hshort => by omega

end completion

/-! ## what is at a path after a change -/

section bytesAt

variable {w : World} {path path' : Path} {inode : Nat} {file : File} {bytes bytes' : Content}

theorem bytesAt_setFile (h : (w.setFile inode file).bytesAt path = some bytes) :
    bytes = file.bytes ∨ w.bytesAt path = some bytes := by
  cases hentry : w.entries path with
  | none => simp [World.bytesAt, World.setFile, hentry] at h
  | some other =>
      by_cases hsame : other = inode
      · simp only [World.bytesAt, World.setFile, hentry, Option.map_some, Option.some.injEq, hsame,
          Function.update_self] at h
        exact .inl h.symm
      · right
        simpa [World.bytesAt, World.setFile, hentry, hsame] using h

theorem bytesAt_create (h : (w.create path' bytes').bytesAt path = some bytes) :
    bytes = bytes' ∨ w.bytesAt path = some bytes := by
  by_cases hpath : path = path'
  · subst hpath
    left
    simpa [World.bytesAt, World.create, World.setEntry, World.setFile] using h.symm
  · have hfile : (w.setFile w.next ⟨bytes', w.now⟩).bytesAt path = some bytes := by
      simpa [World.bytesAt, World.create, World.setEntry, World.setFile, hpath] using h
    exact bytesAt_setFile hfile

@[simp] theorem bytesAt_create_self :
    (w.create path bytes).bytesAt path = some bytes := by
  simp [World.bytesAt, World.create, World.setEntry, World.setFile]

end bytesAt

/-! ## the view of an attempt -/

structure View where
  part : Option Nat
  final : Option Nat
  handle : Option Nat
  partBytes : Option Content
  partMtime : Option Int
  finalBytes : Option Content
  handleBytes : Option Content
  stream : Content

def Attempt.view (a : Attempt) (w : World) : View where
  part := w.entries a.partPath
  final := w.entries a.downloadPath
  handle := w.handles a.who
  partBytes := w.bytesAt a.partPath
  partMtime := (w.entries a.partPath).map (fun i => (w.files i).mtime)
  finalBytes := w.bytesAt a.downloadPath
  handleBytes := (w.handles a.who).map (fun i => (w.files i).bytes)
  stream := w.streams a.who

/-- What attempts are to land, and the bytes that they may come upon. -/
structure Aim where
  content : Content
  /-- The temporary files that may be resumed. -/
  mayResume : Content → Prop
  /-- The files that a publication may exchange for the temporary file. -/
  mayReturn : Content → Prop
  /-- A temporary file that was stale at this time does not matter. -/
  since : Option Int

/-- Too old at the time `since` to be resumed after it. -/
def StaleSince (since : Option Int) (mtime : Option Int) : Prop :=
  ∃ s m, since = some s ∧ mtime = some m ∧ stalePartFileSecs < s - m

/-- The temporary file may be resumed, if there is one, and no publication puts another there
    that may not. -/
structure View.Good (aim : Aim) (v : View) : Prop where
  part : ∀ bytes, v.partBytes = some bytes →
    Fine aim.content aim.mayResume bytes ∨ StaleSince aim.since v.partMtime
  opened : ∀ i bytes, v.handle = some i → v.part = some i → v.partBytes = some bytes →
    aim.mayResume bytes
  final : ∀ bytes, v.finalBytes = some bytes → aim.mayReturn bytes →
    Fine aim.content aim.mayResume bytes

/-- The surroundings leave the view of the attempt alone. -/
def Attempt.Undisturbed (a : Attempt) (rely : World → World → Prop) : Prop :=
  ∀ w w', rely w w' → a.view w' = a.view w ∧ w.now ≤ w'.now

/-- It is not earlier than `since`. -/
def Since (since : Option Int) (w : World) : Prop := ∀ s, since = some s → s ≤ w.now

section lands

variable (host : LandHost) (a : Attempt) (rely : World → World → Prop) (since : Option Int)
  (I : View → Prop)

/-- From a view in `P`, the program keeps `I` and ends with a view in `R`. -/
def Lands {ε : Type} (P : View → Prop) (program : ExceptT ε (Proc Call Resp) α)
    (R : α → View → Prop) : Prop :=
  SafeTo (answer host) rely (fun w => Since since w ∧ I (a.view w))
    (fun w => (Since since w ∧ I (a.view w)) ∧ P (a.view w)) program
    (fun r w => (Since since w ∧ I (a.view w)) ∧ R r (a.view w))
    (fun _ w => Since since w ∧ I (a.view w))

variable {host a rely since I} {ε : Type} {P P' : View → Prop} {R R' : α → View → Prop}

section rules

variable (hrely : a.Undisturbed rely)
include hrely

theorem stable_view (Q : View → Prop) :
    Stable rely (fun w => (Since since w ∧ I (a.view w)) ∧ Q (a.view w)) := by
  rintro w w' hstep ⟨⟨hsince, hI⟩, hQ⟩
  obtain ⟨hview, hnow⟩ := hrely w w' hstep
  rw [hview]
  exact ⟨⟨fun s hs => Int.le_trans (hsince s hs) hnow, hI⟩, hQ⟩

theorem lands_pure {r : α} (h : ∀ v, I v → P v → R r v) :
    Lands host a rely since I P (pure r : ExceptT ε (Proc Call Resp) α) R :=
  safeTo_pure (stable_view hrely P) (fun _ hw => hw.1) (fun _ hw => ⟨hw.1, h _ hw.1.2 hw.2⟩)

theorem lands_throw {e : ε} :
    Lands host a rely since I P (throw e : ExceptT ε (Proc Call Resp) α) R :=
  safeTo_throw (stable_view hrely P) (fun _ hw => hw.1) (fun _ hw => hw.1)

theorem lands_lift {call : Call} {R : Resp call → View → Prop}
    (h : ∀ w c, Since since w → I (a.view w) → P (a.view w) → I (a.view (act host w call c).2) ∧
      R (act host w call c).1 (a.view (act host w call c).2)) :
    Lands host a rely since I P
      (ExceptT.lift (perform call) : ExceptT ε (Proc Call Resp) (Resp call)) R := by
  refine safeTo_lift (stable_view hrely P) (fun _ hw => hw.1)
    (fun r => stable_view hrely (R r)) (fun _ _ hw => hw.1) (fun w c hw => ?_)
  obtain ⟨⟨hsince, hI⟩, hP⟩ := hw
  have hlater : Since since (w.later c.elapsed) := by
    intro s hs
    have h' := hsince s hs
    show s ≤ w.now + c.elapsed
    omega
  obtain ⟨hI', hR⟩ := h (w.later c.elapsed) c hlater hI hP
  refine ⟨⟨fun s hs => ?_, hI'⟩, hR⟩
  have hnow : (answer host w call c).2.now = (w.later c.elapsed).now := act_now host
  rw [hnow]
  exact hlater s hs

theorem lands_look {call : Call} {R : Resp call → View → Prop}
    (hsame : ∀ w c, a.view (act host w call c).2 = a.view w)
    (h : ∀ w c, Since since w → I (a.view w) → P (a.view w) →
      R (act host w call c).1 (a.view w)) :
    Lands host a rely since I P
      (ExceptT.lift (perform call) : ExceptT ε (Proc Call Resp) (Resp call)) R :=
  lands_lift hrely (fun w c hsince hI hP => by rw [hsame]; exact ⟨hI, h w c hsince hI hP⟩)

end rules

variable {program : ExceptT ε (Proc Call Resp) α}

theorem lands_bind {rest : α → ExceptT ε (Proc Call Resp) β} {R' : β → View → Prop}
    (h : Lands host a rely since I P program R)
    (hrest : ∀ r, Lands host a rely since I (R r) (rest r) R') :
    Lands host a rely since I P (program >>= rest) R' := safeTo_bind h hrest

theorem lands_ite {c : Prop} [Decidable c] {x y : ExceptT ε (Proc Call Resp) α}
    (hx : c → Lands host a rely since I P x R) (hy : ¬c → Lands host a rely since I P y R) :
    Lands host a rely since I P (if c then x else y) R := safeTo_ite hx hy

theorem lands_conseq (h : Lands host a rely since I P program R) (hP : ∀ v, I v → P' v → P v)
    (hR : ∀ r v, I v → R r v → R' r v) : Lands host a rely since I P' program R' :=
  SafeTo.mono h (fun _ hw => ⟨hw.1, hP _ hw.1.2 hw.2⟩)
    (fun r _ hw => ⟨hw.1, hR r _ hw.1.2 hw.2⟩)
    (fun _ _ hw => hw)

theorem lands_pre {p : Prop} (hp : ∀ v, I v → P v → p)
    (h : p → Lands host a rely since I P program R) : Lands host a rely since I P program R :=
  safeTo_pre (fun _ hw => hp _ hw.1.2 hw.2) h

theorem lands_exists {ι : Type} {P : ι → View → Prop}
    (h : ∀ x, Lands host a rely since I (P x) program R) :
    Lands host a rely since I (fun v => ∃ x, P x v) program R := by
  rintro w ⟨hI, x, hP⟩
  exact h x w ⟨hI, hP⟩

theorem lands_adapt {ε' : Type} {f : ε → ε'} (h : Lands host a rely since I P program R) :
    Lands host a rely since I P (ExceptT.adapt f program) R := safeTo_adapt h (fun _ _ hw => hw)

theorem lands_try {ε' : Type} (h : Lands host a rely since I P program R) :
    Lands host a rely since I P
      (ExceptT.lift program.run : ExceptT ε' (Proc Call Resp) (Except ε α))
      (fun r v => ∀ x, r = .ok x → R x v) := by
  refine SafeTo.mono (safeTo_try h) (fun _ hw => hw) (fun r w hw => ?_) (fun _ _ hw => hw.elim)
  cases r with
  | ok x => exact ⟨hw.1, fun x' hx => by cases hx; exact hw.2⟩
  | error e => exact ⟨hw, fun x' hx => nomatch hx⟩

theorem Lands.weaken {I' : View → Prop} (h : Lands host a rely since I P program R)
    (hI : ∀ v, I v → I' v) :
    Lands host a rely since I' (fun v => I v ∧ P v) program (fun r v => I v ∧ R r v) :=
  SafeTo.weaken (SafeTo.mono h (fun _ hw => ⟨⟨hw.1.1, hw.2.1⟩, hw.2.2⟩)
    (fun _ _ hw => ⟨⟨hw.1.1, hI _ hw.1.2⟩, hw.1.2, hw.2⟩)
    (fun _ _ hw => ⟨hw.1, hI _ hw.2⟩)) (fun _ hw => ⟨hw.1, hI _ hw.2⟩)

end lands

/-! ## the stages -/

/-- What is known of the temporary file and the response once it is clear where the body goes. -/
def Ready (aim : Aim) (start : Start) (v : View) : Prop :=
  match start with
  | .resume offset =>
      (∃ bytes, v.partBytes = some bytes ∧ bytes.length = offset ∧ aim.mayResume bytes) ∧
        v.stream = aim.content.drop offset
  | .restart => v.stream = aim.content

/-- The temporary file is open and written so far, and the stream is still to come. -/
def Filling (aim : Aim) (written : Nat) (stream : Content) (v : View) : Prop :=
  ∃ inode bytes, v.part = some inode ∧ v.handle = some inode ∧ v.partBytes = some bytes ∧
    bytes.length = written ∧ v.stream = stream ∧ aim.mayResume bytes

/-- The temporary file is closed, and all of the body is in it. -/
def Filled (aim : Aim) (v : View) : Prop :=
  v.handle = none ∧ ∃ bytes, v.partBytes = some bytes ∧
    aim.content.length ≤ bytes.length ∧ aim.mayResume bytes

/-- The temporary file has the content. -/
def Complete (aim : Aim) (v : View) : Prop :=
  v.handle = none ∧ v.partBytes = some aim.content

/-- The temporary file that is to be resumed. -/
def Resumed (aim : Aim) (offset : Nat) (v : View) : Prop :=
  ∃ bytes, v.partBytes = some bytes ∧ bytes.length = offset ∧
    Fine aim.content aim.mayResume bytes

/-- What a right response tells of the stream. -/
def Responded (aim : Aim) (offset : Nat) (response : DownloadResponse) (v : View) : Prop :=
  (0 < offset → Resumed aim offset v) ∧
    (response.status = 206 → 0 < offset →
      offset < aim.content.length ∧ v.stream = aim.content.drop offset) ∧
    (¬(response.status = 206 ∧ 0 < offset) → response.status < 300 → v.stream = aim.content)

theorem View.Good.gone {aim : Aim} {v : View} (hpart : v.partBytes = none)
    (hfinal : ∀ bytes, v.finalBytes = some bytes → aim.mayReturn bytes →
      Fine aim.content aim.mayResume bytes) : v.Good aim where
  part bytes hbytes := by simp [hpart] at hbytes
  opened i bytes _ _ hbytes := by simp [hpart] at hbytes
  final := hfinal

section stages

variable {host : LandHost} {a : Attempt} {rely : World → World → Prop} {aim : Aim} {ε : Type}
  {P : View → Prop}

/-- `Lands` with a temporary file that stays good. -/
abbrev LandsGood (host : LandHost) (a : Attempt) (rely : World → World → Prop) (aim : Aim)
    (P : View → Prop) (program : ExceptT ε (Proc Call Resp) α) (R : α → View → Prop) : Prop :=
  Lands host a rely aim.since (View.Good aim) P program R

theorem good_remove {w : World} {c : Choice} (hgood : (a.view w).Good aim) :
    (a.view (removeAnswer w c a.partPath).2).Good aim := by
  unfold removeAnswer
  split
  · exact hgood
  · split
    · exact hgood
    · refine View.Good.gone ?_ (fun bytes hbytes => hgood.final bytes ?_)
      · simp [Attempt.view, World.bytesAt, World.setEntry]
      · by_cases hsame : a.downloadPath = a.partPath
        · simp [Attempt.view, World.bytesAt, World.setEntry, hsame] at hbytes
        · simpa [Attempt.view, World.bytesAt, World.setEntry, hsame] using hbytes

theorem good_stream {w : World} {body : Content} (hgood : (a.view w).Good aim) :
    (a.view { w with streams := Function.update w.streams a.who body }).Good aim where
  part := hgood.part
  opened := hgood.opened
  final := hgood.final

variable (hrely : a.Undisturbed rely)
include hrely

variable {stream : Content}

theorem lands_logRemove :
    LandsGood host a rely aim (fun v => P v ∧ v.stream = stream) (logRemove a.partPath)
      (fun _ v => v.stream = stream) := by
  refine lands_bind (lands_lift hrely (R := fun _ v => v.stream = stream)
    (fun w c _ hgood hP => ⟨good_remove hgood, ?_⟩))
    (fun _ => lands_pure hrely (fun _ _ hstream => hstream))
  show (removeAnswer w c a.partPath).2.streams a.who = stream
  rw [← hP.2]
  unfold removeAnswer
  split
  · rfl
  · split <;> rfl

theorem lands_giveUp {error : DownloadError} {R : α → View → Prop} :
    LandsGood host a rely aim P (do logRemove a.partPath; throw error : Landing α) R := by
  intro w hw
  exact lands_bind (lands_logRemove hrely (P := P)) (fun _ => lands_throw hrely) w
    ⟨hw.1, hw.2, rfl⟩

theorem lands_checkOrRemove {condition : Bool} {error : DownloadError} :
    LandsGood host a rely aim P (checkOrRemove a.partPath condition error)
      (fun _ v => condition ∧ P v) := by
  refine lands_ite (fun h => lands_pure hrely (fun _ _ hP => ⟨h, hP⟩)) (fun _ => ?_)
  exact lands_giveUp hrely

theorem lands_resumeOffset :
    LandsGood host a rely aim (fun _ => True) a.resumeOffset
      (fun offset v => 0 < offset → Resumed aim offset v) := by
  refine lands_bind (lands_look hrely (fun _ _ => rfl) (R := fun found v => ∀ len,
    found = some (len, false) → Resumed aim len v)
    (fun w c hsince hgood _ len hfound => ?_)) (fun found => ?_)
  · have hmeta : metadataAnswer w c a.partPath = some (len, false) := hfound
    unfold metadataAnswer at hmeta
    split at hmeta
    · contradiction
    · cases hentry : w.entries a.partPath with
      | none => simp [hentry] at hmeta
      | some inode =>
          simp only [hentry, Option.map_some, Option.some.injEq, Prod.mk.injEq,
            Bool.or_eq_false_iff, decide_eq_false_iff_not] at hmeta
          obtain ⟨hlength, -, hfresh⟩ := hmeta
          have hbytes : w.bytesAt a.partPath = some (w.files inode).bytes := by
            simp [World.bytesAt, hentry]
          refine ⟨(w.files inode).bytes, hbytes, hlength, ?_⟩
          rcases hgood.part _ hbytes with hfine | ⟨s, m, hs, hm, hstale⟩
          · exact hfine
          · have hmtime : (w.files inode).mtime = m := by
              simpa [Attempt.view, hentry] using hm
            have hnow := hsince s hs
            omega
  · cases found with
    | none => exact lands_pure hrely (fun _ _ _ h => absurd h (by simp))
    | some found =>
        obtain ⟨len, stale⟩ := found
        cases stale with
        | true => exact lands_pure hrely (fun _ _ _ h => absurd h (by simp))
        | false => exact lands_pure hrely (fun _ _ hP _ => hP len rfl)

theorem lands_fetch (hserver : a.server = .of aim.content) (offset : Nat) :
    LandsGood host a rely aim
      (fun v => 0 < offset → Resumed aim offset v) (a.fetch offset) (Responded aim offset) := by
  refine lands_bind (lands_lift hrely (R := fun found v => ∀ response, found = some response →
    Responded aim offset response v) (fun w c _ hgood hP => ?_)) (fun found => ?_)
  · have hcall : act host w (.fetch a.who a.server (if 0 < offset then some offset else none)) c =
        fetchAnswer w c a.who a.server (if 0 < offset then some offset else none) := rfl
    rw [hcall]
    unfold fetchAnswer
    split
    · exact ⟨hgood, fun response hresponse => nomatch hresponse⟩
    · refine ⟨good_stream hgood, fun response hresponse => ⟨hP, ?_⟩⟩
      cases hresponse
      rw [hserver]
      by_cases hoffset : 0 < offset
      · by_cases hstatus : c.response.status = 206
        · by_cases hlength : offset < aim.content.length
          · simp [Attempt.view, Server.of, hoffset, hstatus, hlength]
          · simp [Server.of, hoffset, hstatus, hlength]
        · simp [Attempt.view, Server.of, hoffset, hstatus]
      · simp [Attempt.view, Server.of, hoffset]
  · cases found with
    | none => exact lands_throw hrely
    | some response => exact lands_pure hrely (fun _ _ hP => hP response rfl)

variable {response : DownloadResponse}

theorem lands_startOf {offset : Nat} :
    LandsGood host a rely aim (Responded aim offset response)
      (Attempt.startOf offset response) (Ready aim) := by
  refine lands_ite (fun hresume => lands_pure hrely (fun v hgood hP => ?_)) (fun hresume =>
    lands_ite (fun hsuccess => lands_pure hrely (fun v _ hP => ?_)) (fun _ => lands_throw hrely))
  · obtain ⟨hstatus, hoffset⟩ : response.status = 206 ∧ 0 < offset := by simpa using hresume
    obtain ⟨bytes, hbytes, hlength, hfine⟩ := hP.1 hoffset
    obtain ⟨hshort, hstream⟩ := hP.2.1 hstatus hoffset
    have hne : bytes ≠ [] := by
      rintro rfl
      simp at hlength
      omega
    exact ⟨⟨bytes, hbytes, hlength, hfine hne (by omega)⟩, hstream⟩
  · have hstatus : 200 ≤ response.status ∧ response.status < 300 := by simpa using hsuccess
    exact hP.2.2 (by simpa using hresume) hstatus.2

theorem lands_checkContentType :
    LandsGood host a rely aim P (a.checkContentType response) (fun _ v => P v) := by
  unfold Attempt.checkContentType
  split
  · exact lands_pure hrely (fun _ _ hP => hP)
  · exact lands_giveUp hrely

theorem lands_ofExcept {result : Except DownloadError α} :
    LandsGood host a rely aim P
      (MonadExcept.ofExcept result : Landing α) (fun _ v => P v) := by
  cases result with
  | ok r => exact lands_pure hrely (fun _ _ hP => hP)
  | error e => exact lands_throw hrely

theorem lands_checkRange {start : Start} :
    LandsGood host a rely aim P (a.checkRange response start) (fun _ v => P v) := by
  cases start with
  | restart => exact lands_pure hrely (fun _ _ hP => hP)
  | resume offset =>
      refine lands_bind (lands_ofExcept hrely) (fun _ => ?_)
      split
      · exact lands_conseq (lands_checkOrRemove hrely) (fun _ _ hP => hP) (fun _ _ _ hP => hP.2)
      · exact lands_pure hrely (fun _ _ hP => hP)

theorem lands_createNew (hresume : Resumable a.downloadPath aim.content aim.mayResume) :
    LandsGood host a rely aim (fun v => v.stream = stream) (ask (.createNew a.who a.partPath))
      (fun r v => r = OpenResult.opened → Filling aim 0 stream v) := by
  refine lands_lift hrely (fun w c _ hgood hstream => ?_)
  show (a.view (createAnswer w c a.who a.partPath).2).Good aim ∧
    ((createAnswer w c a.who a.partPath).1 = .opened →
      Filling aim 0 stream (a.view (createAnswer w c a.who a.partPath).2))
  unfold createAnswer
  split
  · exact ⟨hgood, fun h => nomatch h⟩
  · split
    · exact ⟨hgood, fun h => nomatch h⟩
    · have hempty : ∀ bytes, (w.create a.partPath []).bytesAt a.partPath = some bytes →
          bytes = [] := by
        intro bytes hbytes
        simpa using hbytes.symm
      refine ⟨⟨fun bytes h => ?_, fun i bytes _ _ h => ?_, fun bytes h hreturn => ?_⟩, fun _ => ?_⟩
      · rw [hempty bytes h]
        exact .inl (fun hne => absurd rfl hne)
      · rw [hempty bytes h]
        exact hresume.nil
      · have hfinal : (w.create a.partPath []).bytesAt a.downloadPath = some bytes := h
        rcases bytesAt_create hfinal with rfl | hbefore
        · exact fun hne => absurd rfl hne
        · exact hgood.final bytes hbefore hreturn
      · have hpart : (w.create a.partPath []).bytesAt a.partPath = some [] := bytesAt_create_self
        have hentry : (w.create a.partPath []).entries a.partPath = some w.next := by
          simp [World.create, World.setEntry]
        exact ⟨w.next, [], hentry, by simp [Attempt.view], hpart, rfl, hstream, hresume.nil⟩

theorem lands_openAppend {offset : Nat} :
    LandsGood host a rely aim (Ready aim (.resume offset)) (ask (.openAppend a.who a.partPath))
      (fun r v => r = true → Filling aim offset (aim.content.drop offset) v) := by
  refine lands_lift hrely (fun w c _ hgood hready => ?_)
  show (a.view (openAppendAnswer w c a.who a.partPath).2).Good aim ∧
    ((openAppendAnswer w c a.who a.partPath).1 = true →
      Filling aim offset (aim.content.drop offset)
        (a.view (openAppendAnswer w c a.who a.partPath).2))
  obtain ⟨⟨bytes, hbytes, hlength, hmay⟩, hstream⟩ := hready
  have hpart : w.bytesAt a.partPath = some bytes := hbytes
  unfold openAppendAnswer
  split
  · exact ⟨hgood, fun h => nomatch h⟩
  · cases hentry : w.entries a.partPath with
    | none => exact ⟨hgood, fun h => nomatch h⟩
    | some inode =>
        refine ⟨⟨hgood.part, fun i bytes' _ _ h => ?_, hgood.final⟩, fun _ => ?_⟩
        · have hsame : w.bytesAt a.partPath = some bytes' := h
          rw [hpart] at hsame
          cases hsame
          exact hmay
        · exact ⟨inode, bytes, hentry, by simp [Attempt.view], hpart, hlength, hstream, hmay⟩

theorem lands_openPart (hresume : Resumable a.downloadPath aim.content aim.mayResume)
    {start : Start} :
    LandsGood host a rely aim (Ready aim start) (a.openPart start)
      (fun _ => Filling aim start.offset (aim.content.drop start.offset)) := by
  cases start with
  | restart =>
      have hclear : LandsGood host a rely aim (Ready aim .restart) (logRemove a.partPath)
          (fun _ v => v.stream = aim.content) :=
        lands_conseq (lands_logRemove hrely (P := Ready aim .restart)) (fun _ _ hP => ⟨hP, hP⟩)
          (fun _ _ _ hP => hP)
      refine lands_bind hclear (fun _ => lands_bind (lands_createNew hrely hresume) (fun r => ?_))
      cases r with
      | opened => exact lands_pure hrely (fun _ _ hP => hP rfl)
      | alreadyExists => exact lands_throw hrely
      | failed => exact lands_throw hrely
  | resume offset =>
      refine lands_bind (lands_openAppend hrely) (fun r => ?_)
      cases r with
      | true => exact lands_pure hrely (fun _ _ hP => hP rfl)
      | false => exact lands_throw hrely

theorem lands_checkCancelled {bytesWritten : Nat} :
    LandsGood host a rely aim P (a.checkCancelled bytesWritten) (fun _ v => P v) := by
  refine lands_ite (fun _ => lands_bind (lands_look hrely (R := fun _ v => P v) (fun _ _ => rfl)
    (fun _ _ _ _ hP => hP)) (fun r => ?_)) (fun _ => lands_pure hrely (fun _ _ hP => hP))
  cases r with
  | true => exact lands_throw hrely
  | false => exact lands_pure hrely (fun _ _ hP => hP)

theorem lands_nextChunk {written : Nat} :
    LandsGood host a rely aim (Filling aim written stream) (ask (.nextChunk a.who))
      (fun r v => (r = Chunk.finished → stream = [] ∧ Filling aim written stream v) ∧
        ∀ chunk, r = .data chunk →
          ∃ count, chunk = stream.take count ∧ Filling aim written (stream.drop count) v) := by
  refine lands_lift hrely (fun w c _ hgood hfilling => ?_)
  show (a.view (nextChunkAnswer w c a.who).2).Good aim ∧
    ((nextChunkAnswer w c a.who).1 = Chunk.finished → stream = [] ∧
      Filling aim written stream (a.view (nextChunkAnswer w c a.who).2)) ∧
    ∀ chunk, (nextChunkAnswer w c a.who).1 = .data chunk → ∃ count, chunk = stream.take count ∧
      Filling aim written (stream.drop count) (a.view (nextChunkAnswer w c a.who).2)
  obtain ⟨inode, bytes, hpart, hhandle, hbytes, hlength, hstream, hmay⟩ := hfilling
  have hstream' : w.streams a.who = stream := hstream
  unfold nextChunkAnswer
  rw [hstream']
  split
  · exact ⟨hgood, (fun h => nomatch h), fun _ h => nomatch h⟩
  · split
    · next hempty =>
        refine ⟨hgood, fun _ => ⟨List.isEmpty_iff.mp hempty, ?_⟩, fun _ h => nomatch h⟩
        exact ⟨inode, bytes, hpart, hhandle, hbytes, hlength, hstream, hmay⟩
    · refine ⟨good_stream hgood, (fun h => nomatch h), fun chunk hchunk => ?_⟩
      cases hchunk
      exact ⟨c.count, rfl, inode, bytes, hpart, hhandle, hbytes, hlength, by simp [Attempt.view],
        hmay⟩

/-- What is written is the next piece of the content, or the front of it. -/
theorem lands_writeAll (hresume : Resumable a.downloadPath aim.content aim.mayResume)
    {written count : Nat} :
    LandsGood host a rely aim (Filling aim written stream)
      (ask (.writeAll a.who ((aim.content.drop written).take count)))
      (fun r v => r = true →
        Filling aim (written + ((aim.content.drop written).take count).length) stream v) := by
  refine lands_lift hrely (fun w c _ hgood hfilling => ?_)
  show (a.view (writeAnswer w c a.who _).2).Good aim ∧ ((writeAnswer w c a.who _).1 = true →
    Filling aim _ stream (a.view (writeAnswer w c a.who _).2))
  obtain ⟨inode, bytes, hpart, hhandle, hbytes, hlength, hstream, hmay⟩ := hfilling
  have hentry : w.entries a.partPath = some inode := hpart
  have hopen : w.handles a.who = some inode := hhandle
  have hfile : (w.files inode).bytes = bytes := by
    have h : w.bytesAt a.partPath = some bytes := hbytes
    simpa [World.bytesAt, hentry] using h
  subst hlength
  unfold writeAnswer
  rw [hopen]
  simp only [hfile]
  generalize hchunk : (if c.fails then ((aim.content.drop bytes.length).take count).take c.count
    else (aim.content.drop bytes.length).take count) = chunk
  have hmay' : aim.mayResume (bytes ++ chunk) := by
    rw [← hchunk]
    split
    · rw [List.take_take]
      exact hresume.append bytes _ hmay
    · exact hresume.append bytes _ hmay
  have hpart' : (w.setFile inode ⟨bytes ++ chunk, w.now⟩).bytesAt a.partPath =
      some (bytes ++ chunk) := by
    simp [World.bytesAt, World.setFile, hentry]
  refine ⟨⟨fun bytes' h => ?_, fun i bytes' _ _ h => ?_, fun bytes' h hreturn => ?_⟩,
    fun hdone => ?_⟩
  · cases hpart'.symm.trans h
    exact .inl (fun _ _ => hmay')
  · cases hpart'.symm.trans h
    exact hmay'
  · have hfinal : (w.setFile inode ⟨bytes ++ chunk, w.now⟩).bytesAt a.downloadPath =
        some bytes' := h
    rcases bytesAt_setFile hfinal with rfl | hbefore
    · exact fun _ _ => hmay'
    · exact hgood.final bytes' hbefore hreturn
  · have hworks : c.fails = false := by simpa using hdone
    rw [hworks, if_neg (by simp)] at hchunk
    exact ⟨inode, bytes ++ chunk, hentry, hopen, hpart', by simp [hchunk], hstream, hmay'⟩

theorem lands_syncPart : LandsGood host a rely aim P a.syncPart (fun _ v => P v) := by
  refine lands_bind (lands_look hrely (R := fun _ v => P v) (fun _ _ => rfl)
    (fun _ _ _ _ hP => hP))
    (fun r => ?_)
  cases r with
  | true => exact lands_pure hrely (fun _ _ hP => hP)
  | false => exact lands_throw hrely

theorem lands_streamBody (hresume : Resumable a.downloadPath aim.content aim.mayResume)
    (fuel written : Nat) :
    LandsGood host a rely aim (Filling aim written (aim.content.drop written))
      (a.streamBody response fuel written)
      (fun n v => aim.content.drop n = [] ∧ Filling aim n [] v) := by
  induction fuel generalizing written with
  | zero => exact fun w hw w' hsteps => ((stable_view hrely _).star hw hsteps).1
  | succ fuel ih =>
      refine lands_bind (lands_checkCancelled hrely) (fun _ =>
        lands_bind (lands_nextChunk hrely) (fun r => ?_))
      cases r with
      | broken => exact lands_throw hrely
      | finished =>
          refine lands_bind (lands_syncPart hrely) (fun _ =>
            lands_pure hrely (fun v _ hP => ?_))
          obtain ⟨hempty, hfilling⟩ := hP.1 rfl
          rw [hempty] at hfilling
          exact ⟨hempty, hfilling⟩
      | data chunk =>
          refine lands_conseq (P := fun v => ∃ count,
            chunk = (aim.content.drop written).take count ∧
              Filling aim written ((aim.content.drop written).drop count) v)
            (lands_exists (fun count => lands_pre (fun _ _ hP => hP.1) (fun hchunk => ?_)))
            (fun v _ hP => hP.2 chunk rfl) (fun _ _ _ hR => hR)
          subst hchunk
          refine lands_bind (lands_conseq (lands_writeAll hrely hresume) (fun _ _ hP => hP.2)
            (fun _ _ _ hR => hR)) (fun r => ?_)
          cases r with
          | false => exact lands_throw hrely
          | true =>
              refine lands_conseq (ih _) (fun v _ hP => ?_) (fun _ _ _ hR => hR)
              rw [← drop_take_length]
              exact hP rfl

theorem lands_closePart {result : Except DownloadError Nat} :
    LandsGood host a rely aim
      (fun v => ∀ n, result = .ok n → aim.content.drop n = [] ∧ Filling aim n [] v)
      (a.closePart result) (fun _ => Filled aim) := by
  have hclose : LandsGood host a rely aim
      (fun v => ∀ n, result = .ok n → aim.content.drop n = [] ∧ Filling aim n [] v)
      (ask (.close a.who)) (fun _ v => ∀ n, result = .ok n → Filled aim v) := by
    refine lands_lift hrely (fun w c _ hgood hP => ⟨⟨hgood.part, fun i bytes h => ?_, hgood.final⟩,
      fun n hn => ?_⟩)
    · simp [Attempt.view, act] at h
    · obtain ⟨hrest, inode, bytes, -, -, hbytes, hlength, -, hmay⟩ := hP n hn
      refine ⟨by simp [Attempt.view, act], bytes, hbytes, ?_, hmay⟩
      have hall : aim.content.length ≤ n := by simpa using hrest
      omega
  refine lands_bind hclose (fun _ => ?_)
  cases result with
  | ok n => exact lands_pure hrely (fun _ _ hP => hP n rfl)
  | error e =>
      exact lands_bind (lands_checkOrRemove hrely) (fun _ => lands_throw hrely)

theorem lands_checkSize {expected : Option Nat} {received : Nat} :
    LandsGood host a rely aim P (a.checkSize expected received) (fun _ v => P v) := by
  cases expected with
  | none => exact lands_pure hrely (fun _ _ hP => hP)
  | some expected =>
      exact lands_conseq (lands_checkOrRemove hrely) (fun _ _ hP => hP) (fun _ _ _ hR => hR.2)

theorem lands_validatePart (hresume : Resumable a.downloadPath aim.content aim.mayResume) :
    LandsGood host a rely aim (Filled aim) a.validatePart
      (fun content v => content = aim.content ∧ Complete aim v) := by
  refine lands_bind (lands_look hrely (fun _ _ => rfl) (R := fun r v => ∀ bytes, r = some bytes →
    v.partBytes = some bytes ∧ Filled aim v) (fun w c _ _ hfilled bytes hread => ?_)) (fun r => ?_)
  · have hread' : (if c.fails then none else w.bytesAt a.partPath) = some bytes := hread
    split at hread'
    · contradiction
    · exact ⟨hread', hfilled⟩
  · cases r with
    | none => exact lands_giveUp hrely
    | some bytes =>
        simp only
        cases hcheck : validateDownloadedContent bytes a.downloadPath with
        | error e => exact lands_giveUp hrely
        | ok _ =>
            refine lands_pure hrely (fun v _ hP => ?_)
            obtain ⟨hbytes, hclosed, bytes', hbytes', hlength, hmay⟩ := hP bytes rfl
            cases hbytes.symm.trans hbytes'
            have heq := hresume.sound bytes hmay hlength hcheck
            exact ⟨heq, hclosed, by rw [hbytes, heq]⟩

/-- **An attempt that gets to its publication has the content in the temporary file.** -/
theorem lands_fill (hserver : a.server = .of aim.content)
    (hresume : Resumable a.downloadPath aim.content aim.mayResume) (fuel : Nat) :
    LandsGood host a rely aim (fun _ => True) (a.fill fuel)
      (fun downloaded v => downloaded.content = aim.content ∧ Complete aim v) :=
  lands_bind (lands_resumeOffset hrely) fun offset =>
    lands_bind (lands_fetch hrely hserver offset) fun _ =>
    lands_bind (lands_startOf hrely) fun start =>
    lands_bind (lands_checkContentType hrely) fun _ =>
    lands_bind (lands_checkRange hrely) fun _ =>
    lands_bind (lands_openPart hrely hresume) fun _ =>
    lands_bind (lands_try (lands_streamBody hrely hresume fuel start.offset)) fun _ =>
    lands_bind (lands_closePart hrely) fun _ =>
    lands_bind (lands_checkCancelled hrely) fun _ =>
    lands_bind (lands_checkSize hrely) fun _ =>
    lands_bind (lands_checkSize hrely) fun _ =>
    lands_bind (lands_validatePart hrely hresume) fun _ =>
    lands_pure hrely (fun _ _ hP => hP)

end stages

end Kei.Download
