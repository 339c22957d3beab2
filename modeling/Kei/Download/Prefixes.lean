import Kei.Download.Attempts
import Kei.Lib.Total

/-!
# Kei.Download.Prefixes

An attempt that finds a front of the content at its temporary path, and meets no
fault of its transfer.

The server delivers the content as a `Delivery` says: it honours ranges and
answers those behind the end with 416, or it ignores them.  The calls of the
attempt are answered as `Delivery.Clean` allows.  Whether the attempt ends with
the content is then settled, and it does not where the front is all of the
content and ranges are honoured.
-/

namespace Kei.Download

open Proc

/-! ## a server without faults -/

/-- How a server delivers the content. -/
structure Delivery (content : Content) where
  honoursRange : Bool
  sendsLength : Bool
  contentType : Option String
  /-- The range of a response from an offset on. -/
  contentRange : Nat → String
  contentRange_start : ∀ offset < content.length,
    parseContentRangeStart (contentRange offset) = some offset

namespace Delivery

variable {content : Content} (d : Delivery content)

/-- The head of the response to a request from an offset on. -/
def response : (resumeFrom : Option Nat) → DownloadResponse
  | some offset =>
      if d.honoursRange then
        { status := 206
          contentLength := if d.sendsLength then some (content.length - offset) else none
          contentRange := some (d.contentRange offset)
          contentType := d.contentType }
      else
        { status := 200
          contentLength := if d.sendsLength then some content.length else none
          contentRange := none
          contentType := d.contentType }
  | none =>
      { status := 200
        contentLength := if d.sendsLength then some content.length else none
        contentRange := none
        contentType := d.contentType }

/-- No call fails, nothing is cancelled, every piece of the body has bytes, and the response is
    the server's. -/
def Clean (call : Call) (c : Choice) : Prop :=
  c.fails = false ∧ c.unsupported = false ∧ c.cancelled = false ∧ 0 < c.count ∧
    match call with
    | .fetch _ _ resumeFrom => c.response = d.response resumeFrom
    | _ => True

/-- And no time passes. -/
def CleanNow (call : Call) (c : Choice) : Prop := d.Clean call c ∧ c.elapsed = 0

theorem cleanNow_exists (call : Call) : ∃ c, d.CleanNow call c := by
  cases call with
  | fetch who server resumeFrom =>
      exact ⟨{ works 1 with response := d.response resumeFrom }, ⟨rfl, rfl, rfl, Nat.one_pos, rfl⟩,
        rfl⟩
  | _ => exact ⟨works 1, ⟨rfl, rfl, rfl, Nat.one_pos, trivial⟩, rfl⟩

theorem clean_exists (call : Call) : ∃ c, d.Clean call c :=
  (d.cleanNow_exists call).imp fun _ h => h.1

end Delivery

/-! ## what an attempt finds and leaves -/

namespace Attempt

variable (host : LandHost) (a : Attempt)

/-- The temporary file has these bytes. -/
def PartIs (bytes : Content) (w : World) : Prop :=
  ∃ inode, w.entries a.partPath = some inode ∧ (w.files inode).bytes = bytes

/-- The temporary file was written within the last hour. -/
def PartFresh (w : World) : Prop :=
  ∀ inode, w.entries a.partPath = some inode →
    w.now - (w.files inode).mtime ≤ stalePartFileSecs

/-- Nothing is in the way of the publication: the caller makes it, or the final path is free, or
    it has the file that is to be replaced. -/
def Publishable (w : World) : Prop :=
  a.skipRename = false →
    a.partPath ≠ a.downloadPath ∧
    match a.publication with
    | .noReplace => w.entries a.downloadPath = none
    | .replaceTruncated expected =>
        ∃ inode, w.entries a.downloadPath = some inode ∧
          fingerprintOf host (w.files inode).bytes = expected ∧ inode < w.next ∧
          w.entries a.partPath ≠ some inode

/-- Where the attempt leaves what it downloaded. -/
def landingPath : Path := if a.skipRename then a.partPath else a.downloadPath

/-- It returned the content, and left it there. -/
def HasDownloaded (content : Content) (r : Except DownloadError Downloaded) (w : World) : Prop :=
  r = .ok ⟨content.length, content⟩ ∧ w.bytesAt a.landingPath = some content

end Attempt

/-- The body does not look like an error document. -/
def typeAccepted (contentType : Option String) : Bool :=
  (contentType.bind rejectingContentTypeReason).isNone

/-! ## the publication stays possible -/

section publishable

variable {host : LandHost} {a : Attempt} {w : World}

/-- The final path keeps its file, which does not become the temporary one. -/
theorem publishable_frame {w' : World} (h : a.Publishable host w)
    (hentry : a.partPath ≠ a.downloadPath →
      w'.entries a.downloadPath = w.entries a.downloadPath)
    (hfile : ∀ inode, inode < w.next → w.entries a.partPath ≠ some inode →
      w'.files inode = w.files inode ∧ inode < w'.next ∧ w'.entries a.partPath ≠ some inode) :
    a.Publishable host w' := by
  intro hskip
  obtain ⟨hne, hfinal⟩ := h hskip
  refine ⟨hne, ?_⟩
  cases hpublication : a.publication with
  | noReplace =>
      rw [hpublication] at hfinal
      exact (hentry hne).trans hfinal
  | replaceTruncated expected =>
      rw [hpublication] at hfinal
      obtain ⟨inode, hat, hprint, hlt, hpart⟩ := hfinal
      obtain ⟨hsame, hlt', hpart'⟩ := hfile inode hlt hpart
      refine ⟨inode, (hentry hne).trans hat, ?_, hlt', hpart'⟩
      rw [hsame]
      exact hprint

theorem publishable_remove (h : a.Publishable host w) :
    a.Publishable host (w.setEntry a.partPath none) :=
  publishable_frame h (fun hne => by simp [World.setEntry, hne.symm])
    (fun _ hlt _ => ⟨rfl, hlt, by simp [World.setEntry]⟩)

theorem publishable_create (h : a.Publishable host w) (bytes : Content) :
    a.Publishable host (w.create a.partPath bytes) := by
  refine publishable_frame h
    (fun hne => by simp [World.create, World.setEntry, World.setFile, hne.symm])
    (fun inode hlt _ => ?_)
  have hother : inode ≠ w.next := by omega
  refine ⟨?_, Nat.lt_succ_of_lt hlt, ?_⟩
  · simp [World.create, World.setEntry, World.setFile, hother]
  · simpa [World.create, World.setEntry, World.setFile] using hother.symm

theorem publishable_setFile {inode : Nat} (h : a.Publishable host w)
    (hpart : w.entries a.partPath = some inode) (file : File) :
    a.Publishable host (w.setFile inode file) := by
  refine publishable_frame h (fun _ => rfl) (fun other hlt hapart => ⟨?_, hlt, hapart⟩)
  have hother : other ≠ inode := fun heq => hapart (heq ▸ hpart)
  simp [World.setFile, hother]

end publishable

/-! ## the stages -/

section stages

variable {host : LandHost} {a : Attempt} {content : Content} {d : Delivery content}
  {allowed : Call → Choice → Prop} {E : DownloadError → World → Prop} {P : World → Prop}

/-- The temporary file, with nothing in the way of the publication. -/
def Found (host : LandHost) (a : Attempt) (bytes : Content) (w : World) : Prop :=
  a.PartIs bytes w ∧ a.Publishable host w

/-- The response is the server's, and its body is still to come. -/
def Delivered (host : LandHost) (a : Attempt) (d : Delivery content) (found : Content)
    (offset : Nat) (response : DownloadResponse) (w : World) : Prop :=
  Found host a found w ∧
    response = d.response (if 0 < offset then some offset else none) ∧
    w.streams a.who = if d.honoursRange && decide (0 < offset) then content.drop offset else content

/-- The temporary file is open and has what is written of the content, and `taken` bytes of the
    body came. -/
def Writing (host : LandHost) (a : Attempt) (content : Content) (written taken : Nat)
    (w : World) : Prop :=
  written ≤ content.length ∧ a.Publishable host w ∧ w.streams a.who = content.drop taken ∧
    ∃ inode, w.entries a.partPath = some inode ∧ w.handles a.who = some inode ∧
      (w.files inode).bytes = content.take written

section calls

variable {ε : Type} {E : ε → World → Prop} {call : Call}

theorem ends_askAny :
    Ends (answer host) allowed P (ExceptT.lift (perform call) : ExceptT ε (Proc Call Resp) _)
      (fun _ _ => True) E :=
  ends_lift fun _ _ _ _ => trivial

theorem ends_ask {R : Resp call → World → Prop} (hlater : ∀ w elapsed, P w → P (w.later elapsed))
    (h : ∀ w c, allowed call c → P w → R (act host w call c).1 (act host w call c).2) :
    Ends (answer host) allowed P (ExceptT.lift (perform call) : ExceptT ε (Proc Call Resp) _)
      R E :=
  ends_lift fun w c hc hP => h (w.later c.elapsed) c hc (hlater w c.elapsed hP)

end calls

variable (hall : ∀ call c, allowed call c → d.Clean call c)
include hall

/-- The length of the temporary file, or nothing if it got stale. -/
theorem ends_resumeOffset {found : Content} :
    Ends (answer host) allowed (Found host a found) a.resumeOffset
      (fun offset w => Found host a found w ∧ (offset = found.length ∨ offset = 0)) E := by
  refine ends_bind (R := fun r w => Found host a found w ∧ ∃ stale,
    r = some (found.length, stale)) (ends_ask (fun _ _ h => h) fun w c hc hP => ?_) fun r => ?_
  · obtain ⟨⟨inode, hentry, hbytes⟩, -⟩ := id hP
    refine ⟨hP, ?_⟩
    show ∃ stale, metadataAnswer w c a.partPath = some (found.length, stale)
    unfold metadataAnswer
    rw [(hall _ c hc).1, hentry]
    exact ⟨c.unsupported || decide (stalePartFileSecs < w.now - (w.files inode).mtime),
      by simp [hbytes]⟩
  · refine ends_pre (fun w h => h.2) fun hr => ?_
    obtain ⟨stale, rfl⟩ := hr
    cases stale with
    | true => exact ends_pure fun w h => ⟨h.1, .inr rfl⟩
    | false => exact ends_pure fun w h => ⟨h.1, .inl rfl⟩

theorem ends_fetch {found : Content} {offset : Nat} (hserver : a.server = .of content)
    (hoffset : d.honoursRange = true → 0 < offset → offset < content.length) :
    Ends (answer host) allowed (Found host a found) (a.fetch offset)
      (Delivered host a d found offset) E := by
  refine ends_bind (R := fun r w => ∃ response, r = some response ∧
    Delivered host a d found offset response w) (ends_ask (fun _ _ h => h) fun w c hc hP => ?_)
    fun r => ?_
  · obtain ⟨hfails, -, -, -, hresponse⟩ := hall _ c hc
    show ∃ response, (fetchAnswer w c a.who a.server _).1 = some response ∧
      Delivered host a d found offset response (fetchAnswer w c a.who a.server _).2
    unfold fetchAnswer
    rw [hfails, if_neg (by simp), hserver]
    refine ⟨_, rfl, hP, ?_, ?_⟩
    all_goals
      rw [hresponse]
      by_cases hpos : 0 < offset
      · by_cases hhonours : d.honoursRange = true
        · simp [Server.of, Delivery.response, hpos, hhonours, hoffset hhonours hpos]
        · simp [Server.of, Delivery.response, hpos, hhonours]
      · simp [Server.of, Delivery.response, hpos]
  · cases r with
    | none => exact fun w ⟨_, h, _⟩ => nomatch h
    | some response =>
        refine ends_pure fun w h => ?_
        obtain ⟨_, heq, hdelivered⟩ := h
        cases heq
        exact hdelivered

omit hall in
theorem response_contentType (resumeFrom : Option Nat) :
    (d.response resumeFrom).contentType = d.contentType := by
  cases resumeFrom with
  | none => rfl
  | some offset =>
      rw [Delivery.response]
      split <;> rfl

/-- The head of the response fits where the body goes. -/
def Fits (d : Delivery content) (response : DownloadResponse) (start : Start) : Prop :=
  response.contentType = d.contentType ∧
    (∀ length, response.contentLength = some length → content.length - start.offset = length) ∧
    ∀ offset, start = .resume offset →
      offset < content.length ∧ response.contentRange = some (d.contentRange offset)

/-- The body is still to come, and goes behind the temporary file if that is resumed. -/
def Began (host : LandHost) (a : Attempt) (content found : Content) (start : Start) (w : World) :
    Prop :=
  Found host a found w ∧ w.streams a.who = content.drop start.offset ∧
    ∀ offset, start = .resume offset → offset = found.length

omit hall in
theorem ends_startOf {found : Content} {offset : Nat} {response : DownloadResponse}
    (hlength : offset = found.length ∨ offset = 0)
    (hoffset : d.honoursRange = true → 0 < offset → offset < content.length) :
    Ends (answer host) allowed (Delivered host a d found offset response)
      (Attempt.startOf offset response)
      (fun start w => Fits d response start ∧ Began host a content found start w) E := by
  refine ends_pre (fun w h => h.2.1) fun hresponse => ?_
  subst hresponse
  by_cases hresume : d.honoursRange = true ∧ 0 < offset
  · obtain ⟨hhonours, hpos⟩ := hresume
    have hstart : Attempt.startOf offset (d.response (if 0 < offset then some offset else none)) =
        pure (.resume offset) := by
      simp [Attempt.startOf, Delivery.response, hpos, hhonours]
    rw [hstart]
    refine ends_pure fun w h => ⟨⟨response_contentType _, fun length hlen => ?_,
      fun other heq => ?_⟩, h.1, ?_, fun other heq => ?_⟩
    · simp only [Delivery.response, hpos, hhonours, if_true] at hlen
      split at hlen
      · exact Option.some.inj hlen
      · contradiction
    · cases heq
      exact ⟨hoffset hhonours hpos, by simp [Delivery.response, hpos, hhonours]⟩
    · simpa [hhonours, hpos, Start.offset] using h.2.2
    · cases heq
      omega
  · have hwhole : (d.response (if 0 < offset then some offset else none)) = d.response none := by
      rw [not_and] at hresume
      by_cases hpos : 0 < offset
      · have hhonours : d.honoursRange = false := by
          cases h : d.honoursRange with
          | false => rfl
          | true => exact absurd hpos (hresume h)
        simp [Delivery.response, hpos, hhonours]
      · rw [if_neg hpos]
    have hstart : Attempt.startOf offset (d.response none) = pure .restart := by
      simp [Attempt.startOf, Delivery.response]
    rw [hwhole, hstart]
    refine ends_pure fun w h => ⟨⟨response_contentType _, fun length hlen => ?_, nofun⟩, h.1, ?_,
      nofun⟩
    · simp only [Delivery.response] at hlen
      split at hlen
      · exact Option.some.inj hlen
      · contradiction
    · have hstream := h.2.2
      rw [if_neg (by simpa using hresume)] at hstream
      simpa [Start.offset] using hstream

omit hall in
theorem ends_logRemove :
    Ends (answer host) allowed P (logRemove a.partPath) (fun _ _ => True) E :=
  ends_bind ends_askAny fun _ => ends_pure fun _ h => h

omit hall in

theorem ends_checkContentType {response : DownloadResponse}
    (htype : response.contentType = d.contentType)
    (hE : typeAccepted d.contentType = false → ∀ e w, E e w) :
    Ends (answer host) allowed P (a.checkContentType response)
      (fun _ w => typeAccepted d.contentType = true ∧ P w) E := by
  unfold Attempt.checkContentType
  rw [htype]
  cases hct : d.contentType with
  | none => exact ends_pure fun _ h => ⟨rfl, h⟩
  | some ct =>
      cases hreason : rejectingContentTypeReason ct with
      | none =>
          have haccepted : typeAccepted (some ct) = true := by simp [typeAccepted, hreason]
          simp only [Option.bind_some, hreason, Option.map_none]
          exact ends_pure fun _ h => ⟨haccepted, h⟩
      | some reason =>
          have hrejected : typeAccepted d.contentType = false := by
            simp [typeAccepted, hct, hreason]
          simp only [Option.bind_some, hreason, Option.map_some]
          exact ends_bind ends_logRemove fun _ => ends_throw fun w _ => hE hrejected _ w

omit hall in
theorem ends_checkOrRemove {condition : Bool} {error : DownloadError} (h : condition = true) :
    Ends (answer host) allowed P (checkOrRemove a.partPath condition error) (fun _ => P) E := by
  unfold checkOrRemove
  rw [if_pos h]
  exact ends_pure fun _ hP => hP

omit hall in
theorem ends_checkRange {response : DownloadResponse} {start : Start}
    (hsize : a.expectedSize = some content.length) (hbound : content.length < 2 ^ 64)
    (hfits : Fits d response start) :
    Ends (answer host) allowed P (a.checkRange response start) (fun _ => P) E := by
  cases start with
  | restart => exact ends_pure fun _ h => h
  | resume offset =>
      obtain ⟨hoffset, hrange⟩ := hfits.2.2 offset rfl
      have hvalid : validateResumeContentRange response.contentRange offset = .ok () := by
        rw [hrange, validateResumeContentRange, d.contentRange_start offset hoffset]
        simp
      refine ends_bind (R := fun _ => P) ?_ fun _ => ?_
      · rw [hvalid]
        exact ends_pure fun _ h => h
      rw [hsize]
      cases hlength : response.contentLength with
      | none => exact ends_pure fun _ h => h
      | some length =>
          have hrest := hfits.2.1 length hlength
          refine ends_checkOrRemove (decide_eq_true ?_)
          simp only [Start.offset] at hrest
          unfold Attempt.saturatingAdd
          omega

/-- The temporary file is open, and has what comes before the body. -/
theorem ends_openPart {found : Content} {response : DownloadResponse} {start : Start}
    (hfront : found <+: content) (hfits : Fits d response start) :
    Ends (answer host) allowed (Began host a content found start) (a.openPart start)
      (fun _ => Writing host a content start.offset start.offset) E := by
  cases start with
  | restart =>
      have hremove : Ends (answer host) allowed (Began host a content found .restart)
          (logRemove a.partPath) (fun _ w => a.Publishable host w ∧ w.streams a.who = content ∧
            w.entries a.partPath = none) E := by
        refine ends_bind (ends_ask (R := fun _ w => a.Publishable host w ∧
          w.streams a.who = content ∧ w.entries a.partPath = none) (fun _ _ h => h)
          fun w c hc hP => ?_) fun _ => ends_pure fun _ h => h
        obtain ⟨⟨⟨inode, hentry, -⟩, hpub⟩, hstream, -⟩ := hP
        show a.Publishable host (removeAnswer w c a.partPath).2 ∧
          (removeAnswer w c a.partPath).2.streams a.who = content ∧
          (removeAnswer w c a.partPath).2.entries a.partPath = none
        unfold removeAnswer
        rw [(hall _ c hc).1, hentry]
        exact ⟨publishable_remove hpub, hstream, by simp [World.setEntry]⟩
      refine ends_bind hremove fun _ => ends_bind_eq (v := OpenResult.opened)
        (Q := Writing host a content 0 0) (ends_ask (fun _ _ h => h) fun w c hc hP => ?_) ?_
      · obtain ⟨hpub, hstream, hentry⟩ := hP
        show (createAnswer w c a.who a.partPath).1 = .opened ∧
          Writing host a content 0 0 (createAnswer w c a.who a.partPath).2
        unfold createAnswer
        rw [(hall _ c hc).1, hentry]
        refine ⟨rfl, Nat.zero_le _, publishable_create hpub [], hstream, w.next, ?_, ?_, ?_⟩
        · simp [World.create, World.setEntry]
        · simp
        · simp [World.create, World.setEntry, World.setFile]
      · exact ends_pure fun w h => h
  | resume offset =>
      refine ends_bind_eq (v := true) (Q := Writing host a content offset offset)
        (ends_ask (fun _ _ h => h) fun w c hc hP => ?_) ?_
      · obtain ⟨⟨⟨inode, hentry, hbytes⟩, hpub⟩, hstream, hlength⟩ := hP
        obtain rfl := hlength offset rfl
        show (openAppendAnswer w c a.who a.partPath).1 = true ∧
          Writing host a content found.length found.length (openAppendAnswer w c a.who a.partPath).2
        unfold openAppendAnswer
        rw [(hall _ c hc).1, hentry]
        refine ⟨rfl, hfront.length_le, hpub, hstream, inode, hentry, by simp, ?_⟩
        rw [← List.prefix_iff_eq_take.mp hfront]
        exact hbytes
      · exact ends_pure fun w h => h

theorem ends_checkCancelled {bytesWritten : Nat} (hlater : ∀ w elapsed, P w → P (w.later elapsed)) :
    Ends (answer host) allowed P (a.checkCancelled bytesWritten) (fun _ => P) E := by
  refine ends_ite (fun _ => ?_) (fun _ => ends_pure fun _ h => h)
  refine ends_bind_eq (v := false) (Q := P) (ends_ask hlater fun w c hc hP =>
    ⟨(hall _ c hc).2.2.1, hP⟩) ?_
  exact ends_pure fun w h => h

/-- The body is at its end, or a piece of it came. -/
def Came (host : LandHost) (a : Attempt) (content : Content) (written : Nat) :
    Chunk → World → Prop
  | .finished, w => written = content.length ∧ Writing host a content written written w
  | .data chunk, w =>
      (chunk ≠ [] ∧ chunk <+: content.drop written) ∧
        Writing host a content written (written + chunk.length) w
  | .broken, _ => False

theorem ends_nextChunk {written : Nat} :
    Ends (answer host) allowed (Writing host a content written written) (ask (.nextChunk a.who))
      (Came host a content written) E := by
  refine ends_ask (fun _ _ h => h) fun w c hc hP => ?_
  obtain ⟨hle, hpub, hstream, hinode⟩ := id hP
  obtain ⟨hfails, -, -, hcount, -⟩ := hall _ c hc
  show Came host a content written (nextChunkAnswer w c a.who).1 (nextChunkAnswer w c a.who).2
  unfold nextChunkAnswer
  rw [hfails, hstream]
  cases hrest : content.drop written with
  | nil => exact ⟨Nat.le_antisymm hle (by simpa using hrest), hP⟩
  | cons byte rest =>
      have hne : (byte :: rest).take c.count ≠ [] := by
        simp [List.take_eq_nil_iff, Nat.pos_iff_ne_zero.mp hcount]
      have hfront : (byte :: rest).take c.count <+: content.drop written := by
        rw [hrest]
        exact List.take_prefix _ _
      refine ⟨⟨hne, hfront⟩, hle, hpub, ?_, hinode⟩
      rw [← hrest, ← drop_take_length]
      simp [hrest]

theorem ends_writeAll {chunk : Content} {written : Nat} (hchunk : chunk <+: content.drop written) :
    Ends (answer host) allowed (Writing host a content written (written + chunk.length))
      (ask (.writeAll a.who chunk))
      (fun r w => r = true ∧
        Writing host a content (written + chunk.length) (written + chunk.length) w) E := by
  refine ends_ask (fun _ _ h => h) fun w c hc hP => ?_
  obtain ⟨hle, hpub, hstream, inode, hentry, hhandle, hbytes⟩ := hP
  show (writeAnswer w c a.who chunk).1 = true ∧
    Writing host a content _ _ (writeAnswer w c a.who chunk).2
  have hlength := hchunk.length_le
  rw [List.length_drop] at hlength
  unfold writeAnswer
  rw [(hall _ c hc).1, hhandle]
  refine ⟨rfl, by omega, publishable_setFile hpub hentry _, hstream, inode, hentry, hhandle, ?_⟩
  rw [List.take_add, ← List.prefix_iff_eq_take.mp hchunk, ← hbytes]
  simp [World.setFile]

theorem ends_syncPart {written taken : Nat} :
    Ends (answer host) allowed (Writing host a content written taken) a.syncPart
      (fun _ => Writing host a content written taken) E := by
  refine ends_bind_eq (v := true) (Q := Writing host a content written taken)
    (ends_ask (fun _ _ h => h) fun w c hc hP => ⟨?_, hP⟩) ?_
  · show (!c.fails) = true
    rw [(hall _ c hc).1]
    rfl
  · exact ends_pure fun w h => h

theorem ends_streamBody {response : DownloadResponse} {fuel written : Nat}
    (hfuel : content.length - written < fuel) :
    Ends (answer host) allowed (Writing host a content written written)
      (a.streamBody response fuel written)
      (fun n w => n = content.length ∧
        Writing host a content content.length content.length w) E := by
  induction fuel generalizing written with
  | zero => omega
  | succ fuel ih =>
      refine ends_bind (ends_checkCancelled hall fun _ _ h => h) fun _ =>
        ends_bind (ends_nextChunk hall) fun r => ?_
      cases r with
      | broken => exact fun w h => h.elim
      | finished =>
          refine ends_pre (fun w h => h.1) fun hwritten => ?_
          subst hwritten
          exact ends_bind (ends_strengthen_pre (ends_syncPart hall) fun w h => h.2)
            fun _ => ends_pure fun w h => ⟨rfl, h⟩
      | data chunk =>
          refine ends_pre (fun w h => h.1) fun ⟨hne, hchunk⟩ => ?_
          have hlength := hchunk.length_le
          rw [List.length_drop] at hlength
          have hpos := List.length_pos_of_ne_nil hne
          exact ends_bind_eq (ends_strengthen_pre (ends_writeAll hall hchunk) fun w h => h.2)
            (ih (by omega))

omit hall in
theorem ends_closePart {n : Nat} :
    Ends (answer host) allowed (Writing host a content content.length content.length)
      (a.closePart (.ok n)) (fun r w => r = n ∧ Found host a content w) E := by
  refine ends_bind (R := fun _ => Found host a content) (ends_ask (fun _ _ h => h)
    fun w c _ hP => ?_) fun _ => ends_pure fun _ h => ⟨rfl, h⟩
  obtain ⟨-, hpub, -, inode, hentry, -, hbytes⟩ := hP
  exact ⟨⟨inode, hentry, hbytes.trans List.take_length⟩, hpub⟩

omit hall in
theorem ends_checkSize {expected : Option Nat} {received : Nat}
    (h : ∀ n, expected = some n → received = n) :
    Ends (answer host) allowed P (a.checkSize expected received) (fun _ => P) E := by
  cases expected with
  | none => exact ends_pure fun _ hP => hP
  | some n => exact ends_checkOrRemove (decide_eq_true (h n rfl))

theorem ends_validatePart
    (hE : validateDownloadedContent content a.downloadPath ≠ .ok () → ∀ e w, E e w) :
    Ends (answer host) allowed (Found host a content) a.validatePart
      (fun bytes w => validateDownloadedContent content a.downloadPath = .ok () ∧
        bytes = content ∧ Found host a content w) E := by
  refine ends_bind_eq (v := some content) (Q := Found host a content)
    (ends_ask (fun _ _ h => h) fun w c hc hP => ⟨?_, hP⟩) ?_
  · obtain ⟨⟨inode, hentry, hbytes⟩, -⟩ := hP
    show (if c.fails then none else w.bytesAt a.partPath) = some content
    rw [(hall _ c hc).1, if_neg (by simp), World.bytesAt, hentry]
    exact congrArg some hbytes
  · dsimp only
    cases hcheck : validateDownloadedContent content a.downloadPath with
    | ok _ => exact ends_pure fun w h => ⟨rfl, rfl, h⟩
    | error e =>
        exact ends_bind ends_logRemove fun _ => ends_throw fun w _ => hE (by simp [hcheck]) _ w

/-- The body is accepted, as it looks and as it is declared. -/
def Accepted (a : Attempt) (content : Content) (contentType : Option String) : Prop :=
  typeAccepted contentType = true ∧ validateDownloadedContent content a.downloadPath = .ok ()

/-- The temporary file gets the content, unless the content is not accepted. -/
theorem ends_fill {found : Content} {fuel : Nat} (hserver : a.server = .of content)
    (hsize : a.expectedSize = some content.length) (hbound : content.length < 2 ^ 64)
    (hfront : found <+: content) (hwhole : found ≠ [] → ¬(d.honoursRange = true ∧ found = content))
    (hfuel : content.length < fuel)
    (hE : ¬Accepted a content d.contentType → ∀ e w, E e w) :
    Ends (answer host) allowed (Found host a found) (a.fill fuel)
      (fun r w => Accepted a content d.contentType ∧ r = ⟨content.length, content⟩ ∧
        Found host a content w) E := by
  refine ends_bind (ends_resumeOffset hall) fun offset => ?_
  refine ends_pre (fun w h => h.2) fun hlength => ?_
  have hoffset : d.honoursRange = true → 0 < offset → offset < content.length := by
    intro hhonours hpos
    obtain rfl : offset = found.length := by omega
    refine Nat.lt_of_le_of_ne hfront.length_le fun heq => ?_
    exact hwhole (List.ne_nil_of_length_pos hpos) ⟨hhonours, hfront.eq_of_length heq⟩
  refine ends_bind (ends_strengthen_pre (ends_fetch hall hserver hoffset) fun w h => h.1)
    fun response => ?_
  refine ends_bind (ends_startOf hlength hoffset) fun start => ?_
  refine ends_pre (fun w h => h.1) fun hfits => ?_
  refine ends_bind (ends_strengthen_pre (ends_checkContentType hfits.1 fun hrejected => hE ?_)
    fun w h => h.2) fun _ => ?_
  · exact fun haccepted => Bool.false_ne_true (hrejected.symm.trans haccepted.1)
  refine ends_pre (fun w h => h.1) fun htype => ?_
  refine ends_bind (ends_strengthen_pre (ends_checkRange hsize hbound hfits) fun w h => h.2)
    fun _ => ?_
  refine ends_bind (ends_openPart hall hfront hfits) fun _ => ?_
  refine ends_bind (ends_try (E := fun _ _ => False) (ends_streamBody hall (by omega)))
    fun result => ?_
  cases result with
  | error e => exact fun w h => h.elim
  | ok written =>
      refine ends_pre (fun w h => h.1) fun hwritten => ?_
      subst hwritten
      refine ends_bind_eq (ends_strengthen_pre ends_closePart (fun w h => h.2)) ?_
      refine ends_bind (ends_checkCancelled hall fun _ _ h => h) fun _ => ?_
      refine ends_bind (ends_checkSize fun n hn => hfits.2.1 n hn) fun _ => ?_
      refine ends_bind (ends_checkSize fun n hn => Option.some.inj (hsize.symm.trans hn))
        fun _ => ?_
      refine ends_bind (ends_validatePart hall fun hrejected =>
        hE fun haccepted => hrejected haccepted.2) fun bytes => ?_
      refine ends_pure fun w h => ?_
      obtain ⟨hvalid, rfl, hfound⟩ := h
      exact ⟨⟨htype, hvalid⟩, rfl, hfound⟩

/-! ## the publication -/

section publication

variable {E : PublishError → World → Prop} {part final : Path} {bytes old : Content}
  {expected : ExistingFileFingerprint}

theorem ends_publishPartNoReplace :
    Ends (answer host) allowed
      (fun w => w.bytesAt part = some bytes ∧ w.entries final = none)
      (publishPartNoReplace part final)
      (fun r w => r = .published ∧ w.bytesAt final = some bytes) E := by
  refine ends_bind_eq (v := RenameResult.renamed) (Q := fun w => w.bytesAt final = some bytes)
    (ends_ask (fun _ _ h => h) fun w c hc hP => ?_) ?_
  · obtain ⟨hbytes, hfree⟩ := hP
    obtain ⟨inode, hentry, hfile⟩ := Option.map_eq_some_iff.mp hbytes
    obtain ⟨hfails, hunsupported, -⟩ := hall _ c hc
    show (renameNoReplaceAnswer w c part final).1 = .renamed ∧
      (renameNoReplaceAnswer w c part final).2.bytesAt final = some bytes
    unfold renameNoReplaceAnswer
    rw [hunsupported, hfails, hentry, hfree]
    exact ⟨rfl, by simpa [World.bytesAt, World.setEntry] using hfile⟩
  · exact ends_pure fun w h => ⟨rfl, h⟩

theorem ends_fingerprint {path : Path} (hlater : ∀ w elapsed, P w → P (w.later elapsed))
    (hbytes : ∀ w, P w → w.bytesAt path = some bytes) :
    Ends (answer host) allowed P (fingerprint host path)
      (fun r w => r = fingerprintOf host bytes ∧ P w) E := by
  refine ends_bind_eq (v := some bytes) (Q := P)
    (ends_ask hlater fun w c hc hP => ⟨?_, hP⟩) ?_
  · show (if c.fails then none else w.bytesAt path) = some bytes
    rw [(hall _ c hc).1, if_neg (by simp), hbytes w hP]
  · exact ends_pure fun w h => ⟨rfl, h⟩

omit hall in
theorem ends_ensure {condition : Bool} {error : PublishError} (h : condition = true) :
    Ends (answer host) allowed P (ensure condition error) (fun _ => P) E := by
  unfold ensure
  rw [if_pos h]
  exact ends_pure fun _ hP => hP

theorem ends_exchangeRepairFiles (hne : part ≠ final) :
    Ends (answer host) allowed
      (fun w => w.bytesAt part = some bytes ∧ w.bytesAt final = some old)
      (exchangeRepairFiles host part final expected)
      (fun r w => r = part ∧ w.bytesAt part = some old ∧ w.bytesAt final = some bytes) E := by
  refine ends_bind_eq (v := RenameResult.renamed) (Q := fun w => w.bytesAt part = some old ∧
    w.bytesAt final = some bytes) (ends_ask (fun _ _ h => h) fun w c hc hP => ?_) ?_
  · obtain ⟨inode, hentry, hfile⟩ := Option.map_eq_some_iff.mp hP.1
    obtain ⟨inode', hentry', hfile'⟩ := Option.map_eq_some_iff.mp hP.2
    obtain ⟨hfails, hunsupported, -⟩ := hall _ c hc
    show (exchangeAnswer w c part final).1 = .renamed ∧
      (exchangeAnswer w c part final).2.bytesAt part = some old ∧
      (exchangeAnswer w c part final).2.bytesAt final = some bytes
    unfold exchangeAnswer
    rw [hunsupported, hfails, hentry, hentry']
    refine ⟨rfl, ?_, ?_⟩
    · simpa [World.bytesAt, World.setEntry, hne] using hfile'
    · simpa [World.bytesAt, World.setEntry] using hfile
  · exact ends_pure fun w h => ⟨rfl, h⟩

theorem ends_checkDisplaced {replacement : ExistingFileFingerprint}
    (hexpected : fingerprintOf host old = expected) :
    Ends (answer host) allowed
      (fun w => w.bytesAt part = some old ∧ w.bytesAt final = some bytes)
      (checkDisplaced host part final part expected replacement)
      (fun _ w => w.bytesAt part = some old ∧ w.bytesAt final = some bytes) E := by
  refine ends_bind_eq (v := some old) (Q := fun w => w.bytesAt part = some old ∧
    w.bytesAt final = some bytes) (ends_ask (fun _ _ h => h) fun w c hc hP => ⟨?_, hP⟩) ?_
  · show (if c.fails then none else w.bytesAt part) = some old
    rw [(hall _ c hc).1, if_neg (by simp), hP.1]
  · refine ends_ite (fun _ => ends_pure fun w h => h) fun h => absurd hexpected h

theorem ends_replaceFileIfUnchanged (hne : part ≠ final)
    (hexpected : fingerprintOf host old = expected) :
    Ends (answer host) allowed
      (fun w => w.bytesAt part = some bytes ∧ w.bytesAt final = some old)
      (replaceFileIfUnchanged host part final expected none)
      (fun _ w => w.bytesAt final = some bytes) E := by
  refine ends_bind (ends_adapt (ends_fingerprint (E := fun _ _ => False) hall (fun _ _ h => h)
    fun w h => h.2) fun _ _ h => h.elim) fun current => ?_
  refine ends_pre (fun w h => h.1) fun hcurrent => ?_
  refine ends_bind (ends_ensure (by simpa [hcurrent] using hexpected)) fun _ => ?_
  refine ends_bind (ends_adapt (ends_fingerprint (E := fun _ _ => False) hall (fun _ _ h => h)
    fun w h => h.2.1) fun _ _ h => h.elim) fun replacement => ?_
  refine ends_bind (ends_ensure rfl) fun _ => ?_
  refine ends_bind (ends_strengthen_pre (ends_exchangeRepairFiles hall hne) fun w h => h.2.2)
    fun displaced => ?_
  refine ends_pre (fun w h => h.1) fun hdisplaced => ?_
  subst hdisplaced
  refine ends_bind (R := fun _ w => w.bytesAt displaced = some old ∧ w.bytesAt final = some bytes)
    (ends_pure fun w h => h.2) fun _ => ?_
  refine ends_bind (ends_checkDisplaced hall hexpected) fun _ => ?_
  refine ends_bind (R := fun _ w => w.bytesAt final = some bytes)
    (ends_ask (fun _ _ h => h) fun w c hc hP => ?_) fun _ => ends_pure fun _ h => h
  show (removeAnswer w c displaced).2.bytesAt final = some bytes
  obtain ⟨inode, hentry, hfile⟩ := Option.map_eq_some_iff.mp hP.1
  unfold removeAnswer
  rw [(hall _ c hc).1, hentry]
  simpa [World.bytesAt, World.setEntry, hne.symm] using hP.2

end publication

theorem ends_publish {E : DownloadError → World → Prop} (hskip : a.skipRename = false) :
    Ends (answer host) allowed (Found host a content)
      (publish host a.partPath a.downloadPath a.publication)
      (fun _ w => w.bytesAt a.downloadPath = some content) E := by
  refine ends_adapt (E := fun _ _ => False) ?_ fun _ _ h => h.elim
  have hpart : ∀ w, Found host a content w → w.bytesAt a.partPath = some content := by
    rintro w ⟨⟨inode, hentry, hbytes⟩, -⟩
    rw [World.bytesAt, hentry]
    exact congrArg some hbytes
  cases hpublication : a.publication with
  | noReplace =>
      refine ends_bind_eq (ends_strengthen_pre (ends_publishPartNoReplace hall) fun w h =>
        ⟨hpart w h, ?_⟩) (ends_pure fun w h => h)
      have hfinal := (h.2 hskip).2
      rwa [hpublication] at hfinal
  | replaceTruncated expected =>
      intro w h
      obtain ⟨hne, hfinal⟩ := h.2 hskip
      rw [hpublication] at hfinal
      obtain ⟨inode, hentry, hexpected, -, -⟩ := hfinal
      refine ends_replaceFileIfUnchanged hall hne hexpected w ⟨hpart w h, ?_⟩
      rw [World.bytesAt, hentry]
      rfl

/-! ## the attempt -/

/-- The attempt downloads the content, unless the content is not accepted. -/
theorem ends_run {found : Content} {fuel : Nat} (hserver : a.server = .of content)
    (hsize : a.expectedSize = some content.length) (hbound : content.length < 2 ^ 64)
    (hfront : found <+: content) (hwhole : found ≠ [] → ¬(d.honoursRange = true ∧ found = content))
    (hfuel : content.length < fuel)
    (hE : ¬Accepted a content d.contentType → ∀ e w, E e w) :
    Ends (answer host) allowed (Found host a found) (a.run host fuel)
      (fun r w => Accepted a content d.contentType ∧ a.HasDownloaded content (.ok r) w) E := by
  refine ends_bind (ends_fill hall hserver hsize hbound hfront hwhole hfuel hE) fun r => ?_
  refine ends_pre (p := Accepted a content d.contentType ∧ r = ⟨content.length, content⟩)
    (fun w h => ⟨h.1, h.2.1⟩) fun ⟨haccepted, hr⟩ => ?_
  subst hr
  cases hskip : a.skipRename with
  | true =>
      refine ends_pure fun w h => ⟨haccepted, rfl, ?_⟩
      obtain ⟨-, -, ⟨inode, hentry, hbytes⟩, -⟩ := h
      rw [Attempt.landingPath, hskip, if_pos rfl, World.bytesAt, hentry]
      exact congrArg some hbytes
  | false =>
      refine ends_bind (ends_strengthen_pre (ends_publish hall hskip) fun w h => h.2.2)
        fun _ => ends_pure fun w h => ⟨haccepted, rfl, ?_⟩
      rwa [Attempt.landingPath, hskip]

end stages

section whole

variable {host : LandHost} {a : Attempt} {content : Content} {d : Delivery content}

/-- The range behind the end is asked for and refused, and the temporary file stays. -/
theorem ends_run_whole {fuel : Nat} (hserver : a.server = .of content)
    (hhonours : d.honoursRange = true) (hne : content ≠ []) :
    Ends (answer host) d.CleanNow (fun w => a.PartIs content w ∧ a.PartFresh w) (a.run host fuel)
      (fun _ _ => False) (fun e w => e = .httpStatus 416 ∧ a.PartIs content w) := by
  have hpos := List.length_pos_of_ne_nil hne
  have hoffset : Ends (answer host) d.CleanNow (fun w => a.PartIs content w ∧ a.PartFresh w)
      a.resumeOffset (fun offset w => offset = content.length ∧ a.PartIs content w)
      (fun e w => e = .httpStatus 416 ∧ a.PartIs content w) := by
    refine ends_bind_eq (v := some (content.length, false)) (Q := a.PartIs content)
      (ends_lift fun w c hc hP => ?_) ?_
    · obtain ⟨⟨inode, hentry, hbytes⟩, hfresh⟩ := hP
      obtain ⟨⟨hfails, hunsupported, -⟩, hnow⟩ := hc
      refine ⟨?_, inode, hentry, hbytes⟩
      have hage := hfresh inode hentry
      have hpart : (w.later c.elapsed).entries a.partPath = some inode := hentry
      show metadataAnswer (w.later c.elapsed) c a.partPath = some (content.length, false)
      unfold metadataAnswer
      rw [hfails, hunsupported, hpart, hnow]
      simpa [World.later, hbytes] using hage
    · exact ends_pure fun w h => ⟨rfl, h⟩
  have hfetch : Ends (answer host) d.CleanNow (a.PartIs content) (a.fetch content.length)
      (fun response w => response.status = 416 ∧ a.PartIs content w)
      (fun e w => e = .httpStatus 416 ∧ a.PartIs content w) := by
    refine ends_bind (R := fun r w => ∃ response, r = some response ∧ response.status = 416 ∧
      a.PartIs content w) (ends_ask (fun _ _ h => h) fun w c hc hP => ?_) fun r => ?_
    · obtain ⟨⟨hfails, -, -, -, hresponse⟩, -⟩ := hc
      show ∃ response, (fetchAnswer w c a.who a.server _).1 = some response ∧ _ ∧
        a.PartIs content (fetchAnswer w c a.who a.server _).2
      unfold fetchAnswer
      rw [hfails, if_neg (by simp), hserver]
      refine ⟨_, rfl, ?_, hP⟩
      rw [hresponse]
      simp [Server.of, Delivery.response, hpos, hhonours]
    · cases r with
      | none => exact fun w ⟨_, h, _⟩ => nomatch h
      | some response =>
          refine ends_pure fun w h => ?_
          obtain ⟨_, heq, hrest⟩ := h
          cases heq
          exact hrest
  refine ends_bind (R := fun _ _ => False) (ends_bind hoffset fun offset => ?_)
    fun _ w h => h.elim
  refine ends_pre (fun w h => h.1) fun hr => ?_
  subst hr
  refine ends_bind (ends_strengthen_pre hfetch (fun w h => h.2)) fun response => ?_
  refine ends_bind (R := fun _ _ => False) ?_ fun _ w h => h.elim
  refine ends_pre (fun w h => h.1) fun hstatus => ?_
  have hstart : Attempt.startOf content.length response = throw (.httpStatus 416) := by
    simp [Attempt.startOf, hstatus]
  rw [hstart]
  exact ends_throw fun w h => ⟨rfl, h.2⟩

end whole

section run

variable {host : LandHost} {a : Attempt} {content found : Content} {w : World}

theorem accepted_ne_nil {contentType : Option String} (h : Accepted a content contentType) :
    content ≠ [] := by
  rintro rfl
  exact nomatch h.2

/-- An attempt without faults ends with the content just where the content is accepted and the
    temporary file is not all of it while ranges are honoured. -/
theorem Attempt.run_downloads_iff (d : Delivery content) (hserver : a.server = .of content)
    (hsize : a.expectedSize = some content.length) (hbound : content.length < 2 ^ 64)
    (hpart : a.PartIs found w) (hfront : found <+: content) (hfresh : a.PartFresh w)
    (hpub : a.Publishable host w) :
    (∀ fuel, content.length < fuel →
      EnsuresUnder (answer host) d.Clean (a.HasDownloaded content) (a.run host fuel).run w) ↔
    Accepted a content d.contentType ∧ ¬(d.honoursRange = true ∧ found = content) := by
  constructor
  · intro h
    have hrun := h (content.length + 1) (Nat.lt_succ_self _)
    have hwhole : found ≠ [] → ¬(d.honoursRange = true ∧ found = content) := by
      rintro hne ⟨hhonours, rfl⟩
      have hrefused := @ends_run_whole host _ _ _ (found.length + 1) hserver hhonours
        hne w ⟨hpart, hfresh⟩
      obtain ⟨r, w', ⟨hr, -⟩, hout⟩ := ensuresUnder_both d.cleanNow_exists
        (ensuresUnder_fewer (fun _ _ hc => hc.1) hrun) hrefused
      subst hr
      exact hout
    have hends := @ends_run host _ _ _ _ (fun _ _ => ¬Accepted a content d.contentType)
      (fun _ _ hc => hc) _ _ hserver hsize hbound hfront hwhole (Nat.lt_succ_self _)
      (fun h _ _ => h) w ⟨hpart, hpub⟩
    obtain ⟨r, w', ⟨hr, -⟩, hout⟩ := ensuresUnder_both d.clean_exists hrun hends
    subst hr
    refine ⟨hout.1, fun hfull => ?_⟩
    exact hwhole (hfull.2 ▸ accepted_ne_nil hout.1) hfull
  · rintro ⟨haccepted, hwhole⟩ fuel hfuel
    have hends := @ends_run host _ _ _ _ (fun _ _ => False) (fun _ _ hc => hc) _ _ hserver hsize
      hbound hfront (fun _ => hwhole) hfuel (fun h => absurd haccepted h) w ⟨hpart, hpub⟩
    refine ensuresUnder_mono (fun r w' hout => ?_) hends
    cases r with
    | ok r => exact hout.2
    | error e => exact hout.elim

/-- Four bytes that look like a JPEG. -/
def frontPhoto : Content := [0xFF, 0xD8, 1, 2]

/-- A server that sends it, with ranges. -/
def frontDelivery : Delivery frontPhoto where
  honoursRange := true
  sendsLength := true
  contentType := some "image/jpeg"
  contentRange offset := "bytes " ++ toString offset ++ "-3/4"
  contentRange_start := by decide

def frontAttempt : Attempt where
  who := 0
  server := .of frontPhoto
  downloadPath := "a.jpg"
  partPath := "a.kei-tmp"
  skipRename := false
  expectedSize := some 4
  publication := .noReplace
  hasShutdownToken := true

/-- The temporary file has these bytes, and is all there is. -/
def frontWorld (bytes : Content) : World := emptyWorld.create "a.kei-tmp" bytes

theorem partIs_frontWorld (bytes : Content) : frontAttempt.PartIs bytes (frontWorld bytes) :=
  ⟨0, by simp [frontWorld, frontAttempt, emptyWorld, World.create, World.setEntry],
    by simp [frontWorld, emptyWorld, World.create, World.setEntry, World.setFile]⟩

theorem partFresh_frontWorld (bytes : Content) : frontAttempt.PartFresh (frontWorld bytes) := by
  intro inode hentry
  obtain rfl : 0 = inode := by
    simpa [frontWorld, frontAttempt, emptyWorld, World.create, World.setEntry] using hentry
  simp [frontWorld, emptyWorld, World.create, World.setEntry, World.setFile, stalePartFileSecs]

theorem publishable_frontWorld (bytes : Content) :
    frontAttempt.Publishable plainLandHost (frontWorld bytes) :=
  fun _ => ⟨by decide, by
    simp [frontAttempt, frontWorld, emptyWorld, World.create, World.setEntry, World.setFile]⟩

/-- Two of the bytes are there, and the attempt fetches the rest. -/
theorem Attempt.run_resumes_frontPhoto :
    EnsuresUnder (answer plainLandHost) frontDelivery.Clean (frontAttempt.HasDownloaded frontPhoto)
      (frontAttempt.run plainLandHost 5).run (frontWorld [0xFF, 0xD8]) :=
  (Attempt.run_downloads_iff frontDelivery rfl rfl (by decide) (partIs_frontWorld _) (by decide)
    (partFresh_frontWorld _) (publishable_frontWorld _)).mpr ⟨⟨by decide, by decide⟩, by decide⟩
    5 (by decide)

/-- All of the content is at the temporary path, and the attempt fails for good. -/
theorem whole_temp_file_is_refused :
    frontAttempt.PartIs frontPhoto (frontWorld frontPhoto) ∧
      frontAttempt.PartFresh (frontWorld frontPhoto) ∧
      frontAttempt.Publishable plainLandHost (frontWorld frontPhoto) ∧
      Accepted frontAttempt frontPhoto frontDelivery.contentType ∧
      EnsuresUnder (answer plainLandHost) frontDelivery.CleanNow
        (fun r w => ∃ e, r = .error e ∧ e = .httpStatus 416 ∧ e.isRetryable = false ∧
          frontAttempt.PartIs frontPhoto w)
        (frontAttempt.run plainLandHost 5).run (frontWorld frontPhoto) ∧
      ¬EnsuresUnder (answer plainLandHost) frontDelivery.Clean
        (frontAttempt.HasDownloaded frontPhoto)
        (frontAttempt.run plainLandHost 5).run (frontWorld frontPhoto) := by
  have hrefused := @ends_run_whole plainLandHost frontAttempt _ frontDelivery 5 rfl rfl (by decide)
    (frontWorld frontPhoto)
    ⟨partIs_frontWorld _, partFresh_frontWorld _⟩
  refine ⟨partIs_frontWorld _, partFresh_frontWorld _, publishable_frontWorld _,
    ⟨by decide, by decide⟩, ensuresUnder_mono (fun r w hout => ?_) hrefused, fun h => ?_⟩
  · cases r with
    | ok r => exact hout.elim
    | error e => exact ⟨e, rfl, hout.1, by rw [hout.1]; rfl, hout.2⟩
  · obtain ⟨r, w', ⟨hr, -⟩, hout⟩ := ensuresUnder_both frontDelivery.cleanNow_exists
      (ensuresUnder_fewer (fun _ _ hc => hc.1) h) hrefused
    subst hr
    exact hout

end run

end Kei.Download
