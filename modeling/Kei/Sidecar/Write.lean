import Kei.Download.File
import Kei.Sidecar.Owned

/-!
# Kei.Sidecar.Write

`write_sidecar`: what is left of a sidecar write when its file operations, the
toolkit or the publication fail.

The packet is written to a temporary file of a name that was free, under a
guard that removes the file; the guard is put aside before the publication,
and nothing takes its place there.
-/

namespace Kei.Sidecar

open Download

variable {F : Type}

/-! ## the write -/

/-- What the toolkit makes of the bytes of a sidecar, and of a packet. -/
structure XmpToolkit where
  /-- `None` for bytes that are not UTF-8 and for those that are no packet. -/
  parseExistingSidecar : Content → Option XmpMeta
  serialize : XmpMeta → Content

/-- A call of `write_sidecar`. -/
structure SidecarTask (F : Type) where
  host : LandHost
  fmt : FloatFormat F
  toolkit : XmpToolkit
  mediaPath : Path
  write : MetadataWrite F
  tempSuffix : String
  pid : Nat
  /-- What the global sequence gives for each attempt at a name. -/
  sequence : Nat → Nat

/-- What fails. -/
structure WriteFailures where
  /-- Reading the sidecar, for another reason than that it is not there. -/
  read : Bool
  /-- Making an empty packet. -/
  newMeta : Bool
  /-- A call of the toolkit that changes the packet. -/
  apply : Bool
  /-- The attempts at a temporary file. -/
  create : Nat → Choice
  /-- The calls that fill it. -/
  fill : Nat → Choice
  /-- The calls of the publication. -/
  publish : Nat → Choice

/-- `MetadataWrite::is_empty`. -/
def MetadataWrite.isEmpty (write : MetadataWrite F) : Bool :=
  write.datetime.isNone && write.offsetTimeOriginal.isNone && !write.clearDatetimeOffsets &&
    write.gpsDatetime.isNone && write.gpsSpeed.isNone && write.gpsSpeedRef.isNone &&
    write.gpsHPositioningError.isNone && !write.preserveSourceGps && write.rating.isNone &&
    write.gps.isNone && write.title.isNone && write.description.isNone &&
    write.keywords.isEmpty && write.people.isEmpty && !write.isHidden && !write.isArchived &&
    write.mediaSubtype.isNone && write.burstId.isNone

namespace SidecarTask

variable (task : SidecarTask F) (fails : WriteFailures)

def sidecarPath : Option Path :=
  (fileName task.mediaPath).map (fun name => join (parentPath task.mediaPath) (name ++ ".xmp"))

def sidecarTempPath (sidecar : Path) (sequence : Nat) : Path :=
  join (parentPath sidecar)
    (".kei-xmp-" ++ toString task.pid ++ "-" ++ toString sequence ++ task.tempSuffix)

/-- The packet to write, from the bytes of the sidecar; `none` when there is nothing to do. -/
def packet (existing : Option Content) : Except PublishError (Option Content) := do
  let packet ← match existing with
    | some bytes =>
        match task.toolkit.parseExistingSidecar bytes with
        | some parsed => pure parsed
        | none => throw [.message "Could not parse existing XMP sidecar"]
    | none => if fails.newMeta then throw [.message "creating XmpMeta"] else pure ∅
  if task.write.isEmpty && (packet.lookup keiManagedFields).isNone then
    return none
  else if fails.apply then
    throw [.message "XMP toolkit"]
  else
    return some (task.toolkit.serialize (applyToOwnedSidecar task.fmt packet task.write))

/-- `create_unique_sidecar_temp`, from an attempt on; `fuel` bounds the attempts. -/
def createUniqueSidecarTemp (sidecar : Path) : (fuel : Nat) → (attempt : Nat) → Publishing Path
  | 0, _ => ExceptT.lift .stop
  | fuel + 1, attempt => do
      let candidate := task.sidecarTempPath sidecar (task.sequence attempt)
      match ← request (.createNew 0 candidate) with
      | .opened => return candidate
      | .alreadyExists => createUniqueSidecarTemp sidecar fuel (attempt + 1)
      | .failed => throw [.message "Could not create temporary XMP sidecar", .io false]

end SidecarTask

/-- Fill the temporary file, and put its guard aside. -/
def fillTemp (tmp : Path) (bytes : Content) : Publishing Unit := do
  if !(← request (.writeAll 0 bytes)) then
    dropGuard tmp []
    throw [.message "Could not write temporary XMP sidecar", .io false]
  if !(← request (.syncData 0)) then
    dropGuard tmp []
    throw [.message "Could not sync temporary XMP sidecar", .io false]
  request (.close 0)

/-- `publish_file_if_unchanged`. -/
def publishFileIfUnchanged (host : LandHost) (part final : Path) :
    Option ExistingFileFingerprint → Publishing Unit
  | some expected => replaceFileIfUnchanged host part final expected none
  | none => do
      match ← publishPartNoReplace part final with
      | .published => return ()
      | .destinationExists => throw [.message "it appeared after write planning"]

namespace SidecarTask

variable (task : SidecarTask F) (fails : WriteFailures)

/-- Run a stage on a world. -/
def stage (choices : Nat → Choice) (program : Publishing α) (w : World) :
    Option (Except PublishError α) × World :=
  let (result, _, w') := Proc.exec (answer task.host) choices program.run (0, w)
  (result, w')

end SidecarTask

/-- How a write ended. -/
structure Outcome where
  /-- The temporary file that it made. -/
  created : Option Path
  result : Option (Except PublishError Unit)
  world : World

namespace SidecarTask

variable (task : SidecarTask F) (fails : WriteFailures)

/-- The rest of `prepare_sidecar_write`, once there is a packet, and the publication. -/
def install (sidecar : Path) (existing : Option Content) (bytes : Content) (fuel : Nat)
    (w : World) : Outcome :=
  match task.stage fails.create (task.createUniqueSidecarTemp sidecar fuel 0) w with
  | (some (.ok tmp), w) =>
      match task.stage fails.fill (fillTemp tmp bytes) w with
      | (some (.ok _), w) =>
          let (result, w) := task.stage fails.publish (publishFileIfUnchanged task.host tmp sidecar
            (existing.map (fingerprintOf task.host))) w
          ⟨some tmp, result, w⟩
      | (result, w) => ⟨some tmp, result, w⟩
  | (some (.error error), w) => ⟨none, some (.error error), w⟩
  | (none, w) => ⟨none, none, w⟩

/-- `write_sidecar`. -/
def writeSidecar (fuel : Nat) (w : World) : Outcome :=
  match task.sidecarPath with
  | none =>
      if task.write.isEmpty then ⟨none, some (.ok ()), w⟩
      else ⟨none, some (.error [.message "the media path has no filename"]), w⟩
  | some sidecar =>
      if fails.read then
        ⟨none, some (.error [.message "Could not read existing XMP sidecar"]), w⟩
      else
        match task.packet fails (w.bytesAt sidecar) with
        | .error error => ⟨none, some (.error error), w⟩
        | .ok none => ⟨none, some (.ok ()), w⟩
        | .ok (some bytes) => task.install fails sidecar (w.bytesAt sidecar) bytes fuel w

end SidecarTask

/-! ## running a stage -/

section run

variable {host : LandHost} {choices : Nat → Choice} {α β : Type}

theorem exec_run_bind (x : Publishing α) (f : α → Publishing β) (s : Nat × World) :
    Proc.exec (answer host) choices (x >>= f).run s =
      match Proc.exec (answer host) choices x.run s with
      | (some (.ok a), s') => Proc.exec (answer host) choices (f a).run s'
      | (some (.error e), s') => (some (.error e), s')
      | (none, s') => (none, s') := by
  refine (Proc.exec_bind (answer host) choices x.run _ s).trans ?_
  rcases Proc.exec (answer host) choices x.run s with ⟨_ | _ | a, s'⟩
  · rfl
  · rfl
  · rfl

theorem exec_withContext (contexts : List PublishContext) (x : Publishing α) (s : Nat × World) :
    Proc.exec (answer host) choices (withContext contexts x).run s =
      match Proc.exec (answer host) choices x.run s with
      | (some (.error e), s') => (some (.error (contexts ++ e)), s')
      | r => r := by
  refine (Proc.exec_bind (answer host) choices x.run _ s).trans ?_
  rcases Proc.exec (answer host) choices x.run s with ⟨_ | _ | a, s'⟩
  · rfl
  · rfl
  · rfl

theorem exec_request (call : Call) (n : Nat) (w : World) :
    Proc.exec (answer host) choices (request call).run (n, w) =
      (some (.ok (answer host w call (choices n)).1),
        (n + 1, (answer host w call (choices n)).2)) := rfl

theorem exec_pure (a : α) (s : Nat × World) :
    Proc.exec (answer host) choices (pure a : Publishing α).run s = (some (.ok a), s) := rfl

theorem exec_throw (e : PublishError) (s : Nat × World) :
    Proc.exec (answer host) choices (throw e : Publishing α).run s = (some (.error e), s) := rfl

theorem exec_readFile (path : Path) (n : Nat) (w : World) :
    Proc.exec (answer host) choices (request (.readFile path)).run (n, w) =
      (some (.ok (if (choices n).fails then none else w.bytesAt path)),
        (n + 1, w.later (choices n).elapsed)) := rfl

theorem exec_fingerprint {path : Path} {bytes : Content} {w : World}
    (h : w.bytesAt path = some bytes) (n : Nat) :
    Proc.exec (answer host) choices (fingerprint host path).run (n, w) =
      (some (if (choices n).fails then .error [.io false] else .ok (fingerprintOf host bytes)),
        (n + 1, w.later (choices n).elapsed)) := by
  rw [fingerprint, exec_run_bind, exec_readFile, h]
  cases (choices n).fails <;> rfl

/-! ## replacing a sidecar -/

/-- A rename or an exchange that is carried out. -/
def renames (c : Choice) : Bool := !c.unsupported && !c.fails

/-- The temporary file has these bytes, and the sidecar those. -/
structure Both (part final : Path) (own other : Content) (w : World) : Prop where
  part : w.bytesAt part = some own
  final : w.bytesAt final = some other

theorem Both.later {part final : Path} {own other : Content} {w : World}
    (h : Both part final own other w) (elapsed : Nat) :
    Both part final own other (w.later elapsed) :=
  ⟨h.part, h.final⟩

theorem exec_exchange (host : LandHost) (choices : Nat → Choice) {part final : Path}
    {own other : Content} {w : World} (h : Both part final own other w) (hne : part ≠ final)
    (n : Nat) :
    ∃ r w', Proc.exec (answer host) choices (request (.renameExchange part final)).run (n, w) =
        (some (.ok r), (n + 1, w')) ∧
      (renames (choices n) = true → r = .renamed ∧ Both part final other own w') ∧
      (renames (choices n) = false →
        (r = .unsupported ∨ r = .failed) ∧ Both part final own other w') := by
  obtain ⟨i, hi, hown⟩ := Option.map_eq_some_iff.mp h.part
  obtain ⟨j, hj, hother⟩ := Option.map_eq_some_iff.mp h.final
  refine ⟨_, _, exec_request _ _ _, ?_, ?_⟩
  · intro hrenames
    rw [renames, Bool.and_eq_true, Bool.not_eq_true', Bool.not_eq_true'] at hrenames
    simp only [answer, act, exchangeAnswer, hrenames.1, hrenames.2, World.later, hi, hj]
    refine ⟨rfl, ?_, ?_⟩
    · simp [hne, hother, World.bytesAt, World.setEntry]
    · simp [hown, World.bytesAt, World.setEntry]
  · intro hrenames
    have hlater := h.later (choices n).elapsed
    simp only [answer, act, exchangeAnswer]
    by_cases hunsupported : (choices n).unsupported = true
    · rw [if_pos hunsupported]
      exact ⟨.inl rfl, hlater⟩
    · have hfails : (choices n).fails = true := by
        rw [Bool.not_eq_true] at hunsupported
        simpa [renames, hunsupported] using hrenames
      rw [if_neg hunsupported, if_pos hfails]
      exact ⟨.inr rfl, hlater⟩

/-! ## what a write may leave -/

end run

/-- The temporary file is gone or retained, and the sidecar is as it was or holds the packet; after
a success the file is gone and the sidecar holds the packet. -/
def Tidy (before : Option Content) (bytes : Content) (tmp sidecar : Path)
    (result : Option (Except PublishError Unit)) (w : World) : Prop :=
  ∀ r, result = some r →
    (w.entries tmp = none ∨
      ∃ e, r = .error e ∧ tmp ∈ (classifyConditionalPublishError e).retainedPaths) ∧
    (w.bytesAt sidecar = some bytes ∨ (∃ e, r = .error e) ∧ w.bytesAt sidecar = before)

section run

variable (host : LandHost) (choices : Nat → Choice) {before : Option Content}
  {own other : Content} {part final : Path} {w : World}

theorem tidy_ok : Tidy before own part final (some (.ok ())) w ↔
    w.entries part = none ∧ w.bytesAt final = some own := by
  simp [Tidy]

theorem tidy_error {e : PublishError} : Tidy before own part final (some (.error e)) w ↔
    (w.entries part = none ∨ part ∈ (classifyConditionalPublishError e).retainedPaths) ∧
      (w.bytesAt final = some own ∨ w.bytesAt final = before) := by
  simp [Tidy]

theorem entries_of_bytesAt (h : w.bytesAt part = some own) : w.entries part ≠ none := by
  intro hnone
  rw [World.bytesAt, hnone] at h
  contradiction

/-- An error that retains nothing leaves the temporary file behind. -/
theorem not_tidy_of_bare (h : w.entries part ≠ none) {bytes : Content} {e : PublishError}
    (he : (classifyConditionalPublishError e).retainedPaths = []) :
    ¬Tidy before bytes part final (some (.error e)) w := by
  rw [tidy_error, he]
  rintro ⟨hgone | hretained, -⟩
  · exact h hgone
  · exact List.not_mem_nil hretained

theorem exec_exchangeFailed (final : Path) (w : World) (expected : ExistingFileFingerprint)
    (n : Nat) :
    ∃ e, Proc.exec (answer host) choices (exchangeFailed host final expected).run (n, w) =
        (some (.error e), (n + 1, w.later (choices n).elapsed)) ∧
      (classifyConditionalPublishError e).retainedPaths = [] := by
  rw [exchangeFailed, exec_run_bind, exec_readFile]
  rcases (if (choices n).fails then none else w.bytesAt final) with _ | bytes
  · exact ⟨_, rfl, rfl⟩
  · by_cases h : fingerprintOf host bytes = expected
    · exact ⟨_, by simp only [if_pos h]; rfl, rfl⟩
    · exact ⟨_, by simp only [if_neg h]; rfl, rfl⟩

/-- What was displaced is given back, or kept: the temporary file is retained but for a look at it
that finds the replacement there. -/
theorem exec_giveBack (h : Both part final other own w) (hne : part ≠ final) (n : Nat) :
    ∃ e m w', Proc.exec (answer host) choices
        (giveBack host part final part (fingerprintOf host own) [.io false] [.io false]).run
          (n, w) = (some (.error e), (m, w')) ∧
      w'.entries part ≠ none ∧
      (w'.bytesAt final = some own ∨ w'.bytesAt final = some other) ∧
      (part ∈ (classifyConditionalPublishError e).retainedPaths ↔ (choices n).fails = true ∨
        renames (choices (n + 1)) = false ∨ (choices (n + 2)).fails = true) := by
  simp only [giveBack, restoreRepairTargetIfUnchanged, exec_run_bind, exec_withContext]
  rw [exec_readFile, h.final]
  replace h := h.later (choices n).elapsed
  by_cases hread : (choices n).fails = true
  · simp only [hread, if_true, exec_pure, exec_throw]
    exact ⟨_, _, _, rfl, entries_of_bytesAt h.part, .inl h.final,
      iff_of_true List.mem_cons_self (.inl trivial)⟩
  rw [Bool.not_eq_true] at hread
  simp only [hread, Bool.false_eq_true, if_false, if_true, exec_withContext, exec_run_bind,
    false_or]
  obtain ⟨r, w₁, hexchange, hdone, hnot⟩ := exec_exchange host choices h hne (n + 1)
  rw [hexchange]
  have hkept (error : PublishError) : part ∈ (classifyConditionalPublishError
      ([.targetChanged .unverifiable] ++ ([.mustRetainPaths (retainedRestorePaths part part),
        .targetChanged .unverifiable] ++ error))).retainedPaths := by
    simp [classifyConditionalPublishError, retainedRestorePaths]
  cases hrenames : renames (choices (n + 1)) with
  | false =>
      obtain ⟨hr, hboth⟩ := hnot hrenames
      refine ⟨_, n + 2, w₁, ?_, entries_of_bytesAt hboth.part, .inl hboth.final,
        iff_of_true (hkept [.io false]) (.inl rfl)⟩
      rcases hr with rfl | rfl
      · rfl
      · rfl
  | true =>
      obtain ⟨rfl, hboth⟩ := hdone hrenames
      simp only [exec_run_bind, exec_fingerprint hboth.part]
      replace hboth := hboth.later (choices (n + 2)).elapsed
      by_cases hlook : (choices (n + 2)).fails = true
      · simp only [hlook, if_true]
        exact ⟨_, _, _, rfl, entries_of_bytesAt hboth.part, .inr hboth.final,
          iff_of_true (hkept _) (.inr trivial)⟩
      · rw [Bool.not_eq_true] at hlook
        simp only [hlook, Bool.false_eq_true, if_false, ensure, decide_true, if_true, exec_pure,
          exec_throw]
        exact ⟨_, _, _, rfl, entries_of_bytesAt hboth.part, .inr hboth.final,
          iff_of_false List.not_mem_nil (by simp)⟩

theorem exec_removeFile (h : Both part final other own w) (hne : part ≠ final) (n : Nat) :
    ((choices n).fails = false →
      (answer host w (.removeFile part) (choices n)).2.entries part = none ∧
        (answer host w (.removeFile part) (choices n)).2.bytesAt final = some own) ∧
    ((choices n).fails = true →
      (answer host w (.removeFile part) (choices n)).2.entries part ≠ none) := by
  have hentry : (w.later (choices n).elapsed).entries part ≠ none := entries_of_bytesAt h.part
  have hfinal : (w.later (choices n).elapsed).bytesAt final = some own := h.final
  simp only [answer, act, removeAnswer]
  constructor
  · intro hfails
    rw [if_neg (by rw [hfails]; exact Bool.false_ne_true),
      if_neg (by simpa using hentry)]
    refine ⟨Function.update_self _ _ _, ?_⟩
    simpa [World.bytesAt, World.setEntry, hne.symm] using hfinal
  · intro hfails
    rw [if_pos hfails]
    exact hentry

/-- The pattern of failures with which a sidecar is replaced tidily.  The calls are: reading the
sidecar, reading the temporary file, the exchange, and reading what it displaced; then removing
that, or reading the sidecar, the exchange back and a look at what it brought back. -/
def ReplaceWorks (p : Nat → Choice) : Prop :=
  (p 0).fails = false ∧ ((p 1).fails = true ∨ renames (p 2) = true ∧
    if (p 3).fails then (p 4).fails = true ∨ renames (p 5) = false ∨ (p 6).fails = true
    else (p 4).fails = false)

theorem replace_tidy_iff (hne : part ≠ final) (h : Both part final own other w)
    {result : Option (Except PublishError Unit)} {n : Nat} {w' : World}
    (hrun : Proc.exec (answer host) choices
      (replaceFileIfUnchanged host part final (fingerprintOf host other) none).run (0, w) =
        (result, (n, w'))) :
    Tidy (some other) own part final result w' ↔ ReplaceWorks choices := by
  unfold replaceFileIfUnchanged at hrun
  rw [exec_run_bind, exec_withContext, exec_fingerprint h.final] at hrun
  unfold ReplaceWorks
  by_cases h0 : (choices 0).fails = true
  · simp only [h0, if_pos] at hrun
    obtain ⟨rfl, -, rfl⟩ := hrun
    simp only [h0, Bool.true_eq_false, false_and, iff_false]
    exact not_tidy_of_bare (entries_of_bytesAt (h.later _).part) rfl
  rw [Bool.not_eq_true] at h0
  simp only [h0, Bool.false_eq_true, if_false, ensure, decide_true, if_true, exec_run_bind,
    exec_pure, exec_withContext, exec_fingerprint (h.later _).part] at hrun
  replace h := (h.later (choices 0).elapsed).later (choices 1).elapsed
  by_cases h1 : (choices 1).fails = true
  · simp only [h1, if_true] at hrun
    obtain ⟨rfl, -, rfl⟩ := hrun
    simp only [h0, h1, true_or, and_true, iff_true]
    exact tidy_error.mpr ⟨.inr List.mem_cons_self, .inr h.final⟩
  rw [Bool.not_eq_true] at h1
  simp only [h1, Bool.false_eq_true, if_false, Option.all_none, if_true, exec_pure,
    exchangeRepairFiles, exec_run_bind] at hrun
  obtain ⟨r, w₁, hexchange, hdone, hnot⟩ := exec_exchange host choices h hne 2
  rw [hexchange] at hrun
  cases h2 : renames (choices 2) with
  | false =>
      obtain ⟨hr, hboth⟩ := hnot h2
      obtain ⟨e, hfailed, hbare⟩ := exec_exchangeFailed host choices final w₁
        (fingerprintOf host other) 3
      have herror : result = some (.error e) ∧ w' = w₁.later (choices 3).elapsed := by
        rcases hr with rfl | rfl
        · simp only [hfailed] at hrun
          exact ⟨(congrArg Prod.fst hrun).symm, (congrArg (fun r => r.2.2) hrun).symm⟩
        · simp only [hfailed] at hrun
          exact ⟨(congrArg Prod.fst hrun).symm, (congrArg (fun r => r.2.2) hrun).symm⟩
      obtain ⟨rfl, rfl⟩ := herror
      simp only [h1, Bool.false_eq_true, false_and, or_false, and_false, iff_false]
      exact not_tidy_of_bare (entries_of_bytesAt (hboth.later _).part) hbare
  | true =>
      obtain ⟨rfl, hboth⟩ := hdone h2
      simp only [exec_pure, checkInstalled, checkDisplaced, exec_run_bind] at hrun
      rw [exec_readFile, hboth.part] at hrun
      replace hboth := hboth.later (choices 3).elapsed
      simp only [h0, h1, Bool.false_eq_true, false_or, true_and]
      by_cases h3 : (choices 3).fails = true
      · -- what was displaced cannot be read
        obtain ⟨e, m, w₂, hback, hpart, hfinal, hretained⟩ :=
          exec_giveBack host choices hboth hne 4
        simp only [h3, if_true, hback] at hrun ⊢
        obtain ⟨rfl, -, rfl⟩ := hrun
        rw [tidy_error, hretained]
        exact ⟨fun htidy => htidy.1.resolve_left hpart, fun hkept => ⟨.inr hkept, hfinal⟩⟩
      · -- the displaced file is the one that was expected
        rw [Bool.not_eq_true] at h3
        simp only [h3, Bool.false_eq_true, if_false, if_true, exec_pure] at hrun ⊢
        obtain ⟨hgone, hkept⟩ := exec_removeFile host choices hboth hne 4
        rw [exec_request] at hrun
        obtain ⟨rfl, -, rfl⟩ := hrun
        rw [tidy_ok]
        cases h4 : (choices 4).fails with
        | false => exact ⟨fun _ => rfl, fun _ => hgone h4⟩
        | true => exact ⟨fun htidy => absurd htidy.1 (hkept h4), fun h => Bool.noConfusion h⟩

/-! ## publishing a new sidecar -/

/-- The pattern of failures with which a new sidecar is published: the temporary file is renamed,
or linked and then removed. -/
def PublishWorks (p : Nat → Choice) : Prop :=
  renames (p 0) = true ∨
    (p 0).unsupported = true ∧ (p 1).fails = false ∧ (p 2).fails = false

/-- A publication that did not take place. -/
def Refused (r : Except PublishError PublishResult) : Prop :=
  r = .ok .destinationExists ∨ r = .error [.io false]

theorem exec_destinationExistsOr (final : Path) (n : Nat) (w : World) :
    ∃ r, Proc.exec (answer host) choices (destinationExistsOr final).run (n, w) =
      (some r, (n + 1, w.later (choices n).elapsed)) ∧ Refused r := by
  rw [destinationExistsOr, exec_run_bind, exec_request]
  cases (answer host w (.tryExists final) (choices n)).1 with
  | false => exact ⟨_, rfl, .inr rfl⟩
  | true => exact ⟨_, rfl, .inl rfl⟩

theorem ne_of_free {path free : Path} {i : Nat} (h : w.entries path = some i)
    (hfree : w.entries free = none) : path ≠ free := by
  rintro rfl
  rw [h] at hfree
  contradiction

/-- The hard link puts the file at a free name, and then its own name goes. -/
theorem exec_publishPartByHardLink (final : Path) (hpart : w.bytesAt part = some own) (n : Nat) :
    ∃ r m w', Proc.exec (answer host) choices (publishPartByHardLink part final).run (n, w) =
        (some r, (m, w')) ∧
      (w.entries final = none ∧ (choices n).fails = false ∧ (choices (n + 1)).fails = false →
        r = .ok .published ∧ w'.entries part = none ∧ w'.bytesAt final = some own) ∧
      (¬(w.entries final = none ∧ (choices n).fails = false ∧ (choices (n + 1)).fails = false) →
        w'.entries part ≠ none ∧ (r = .ok .published ∨ Refused r)) := by
  obtain ⟨i, hi, hown⟩ := Option.map_eq_some_iff.mp hpart
  have hentry : (w.later (choices n).elapsed).entries part = some i := hi
  rw [publishPartByHardLink, exec_run_bind, exec_request]
  simp only [answer, act, hardLinkAnswer, hentry, Option.isNone_some, Bool.or_false]
  by_cases hfails : (choices n).fails = true
  · obtain ⟨r, hr, hrefused⟩ := exec_destinationExistsOr host choices final (n + 1)
      (w.later (choices n).elapsed)
    simp only [hfails, if_true, hr]
    refine ⟨_, _, _, rfl, fun h => Bool.noConfusion h.2.1, fun _ => ⟨?_, .inr hrefused⟩⟩
    exact entries_of_bytesAt hpart
  by_cases hfree : w.entries final = none
  · have hne : part ≠ final := ne_of_free hi hfree
    have hnone : (w.later (choices n).elapsed).entries final = none := hfree
    simp only [hfails, if_false, hnone, Option.isSome_none, Bool.false_eq_true, exec_run_bind,
      exec_pure]
    have hboth : Both part final own own ((w.later (choices n).elapsed).setEntry final (some i)) :=
      ⟨by simp [World.bytesAt, World.setEntry, World.later, hne, hi, hown],
        by simp [World.bytesAt, World.setEntry, World.later, hown]⟩
    obtain ⟨hgone, hkept⟩ := exec_removeFile host choices hboth hne (n + 1)
    refine ⟨_, _, _, rfl, fun h => ⟨rfl, hgone h.2.2⟩, fun h => ⟨hkept ?_, .inl rfl⟩⟩
    rw [Bool.not_eq_true] at hfails
    simpa [hfree, hfails] using h
  · have htaken : ((w.later (choices n).elapsed).entries final).isSome = true :=
      Option.isSome_iff_ne_none.mpr hfree
    simp only [hfails, htaken, if_true]
    exact ⟨_, _, _, rfl, fun h => absurd h.1 hfree,
      fun _ => ⟨entries_of_bytesAt hpart, .inr (.inl rfl)⟩⟩

/-- A temporary file is published at a free name if its calls work, and stays otherwise. -/
theorem exec_publishPartNoReplace (final : Path) (hpart : w.bytesAt part = some own) :
    ∃ r n w', Proc.exec (answer host) choices (publishPartNoReplace part final).run (0, w) =
        (some r, (n, w')) ∧
      (w.entries final = none ∧ PublishWorks choices →
        r = .ok .published ∧ w'.entries part = none ∧ w'.bytesAt final = some own) ∧
      (¬(w.entries final = none ∧ PublishWorks choices) →
        w'.entries part ≠ none ∧ (r = .ok .published ∨ Refused r)) := by
  obtain ⟨i, hi, hown⟩ := Option.map_eq_some_iff.mp hpart
  have hentry : (w.later (choices 0).elapsed).entries part = some i := hi
  have hlater : (w.later (choices 0).elapsed).bytesAt part = some own := hpart
  rw [publishPartNoReplace, exec_run_bind, exec_request]
  simp only [answer, act, renameNoReplaceAnswer, hentry, PublishWorks, renames]
  by_cases hunsupported : (choices 0).unsupported = true
  · simp only [hunsupported, if_true, Bool.not_true, Bool.false_and, Bool.false_eq_true, false_or,
      true_and]
    exact exec_publishPartByHardLink host choices final hlater 1
  rw [Bool.not_eq_true] at hunsupported
  simp only [hunsupported, Bool.false_eq_true, if_false, false_and, or_false, Bool.not_false,
    Bool.true_and, Bool.not_eq_true', Option.isNone_some]
  by_cases hfails : (choices 0).fails = true
  · obtain ⟨r, hr, hrefused⟩ := exec_destinationExistsOr host choices final 1
      (w.later (choices 0).elapsed)
    simp only [hfails, if_true, hr]
    exact ⟨_, _, _, rfl, fun h => Bool.noConfusion h.2,
      fun _ => ⟨entries_of_bytesAt hlater, .inr hrefused⟩⟩
  by_cases hfree : w.entries final = none
  · have hne : part ≠ final := ne_of_free hi hfree
    have hnone : (w.later (choices 0).elapsed).entries final = none := hfree
    rw [Bool.not_eq_true] at hfails
    simp only [hfails, Bool.false_eq_true, if_false, hnone, Option.isSome_none, exec_pure]
    refine ⟨_, _, _, rfl, fun _ => ⟨rfl, ?_, ?_⟩, fun h => absurd ⟨hfree, trivial⟩ h⟩
    · simp [World.setEntry, hne]
    · simp [World.bytesAt, World.setEntry, World.later, hown]
  · have htaken : ((w.later (choices 0).elapsed).entries final).isSome = true :=
      Option.isSome_iff_ne_none.mpr hfree
    simp only [hfails, htaken, if_true]
    exact ⟨_, _, _, rfl, fun h => absurd h.1 hfree,
      fun _ => ⟨entries_of_bytesAt hlater, .inr (.inl rfl)⟩⟩

theorem new_tidy_iff (hpart : w.bytesAt part = some own)
    {result : Option (Except PublishError Unit)} {n : Nat} {w' : World}
    (hrun : Proc.exec (answer host) choices
      (publishFileIfUnchanged host part final none).run (0, w) = (result, (n, w'))) :
    Tidy before own part final result w' ↔ w.entries final = none ∧ PublishWorks choices := by
  obtain ⟨r, m, w₁, hpublish, hworks, hnot⟩ := exec_publishPartNoReplace host choices final hpart
  rw [publishFileIfUnchanged, exec_run_bind, hpublish] at hrun
  by_cases h : w.entries final = none ∧ PublishWorks choices
  · obtain ⟨rfl, hgone, hfinal⟩ := hworks h
    obtain ⟨rfl, -, rfl⟩ := hrun
    exact iff_of_true (tidy_ok.mpr ⟨hgone, hfinal⟩) h
  · refine iff_of_false ?_ h
    obtain ⟨hstays, rfl | rfl | rfl⟩ := hnot h
    · obtain ⟨rfl, -, rfl⟩ := hrun
      exact fun htidy => hstays (tidy_ok.mp htidy).1
    · obtain ⟨rfl, -, rfl⟩ := hrun
      exact not_tidy_of_bare hstays rfl
    · obtain ⟨rfl, -, rfl⟩ := hrun
      exact not_tidy_of_bare hstays rfl

/-! ## filling the temporary file -/

/-- The temporary file is open and has these bytes, and all other paths are as they were. -/
structure Filling (tmp : Path) (bytes : Content) (before w : World) : Prop where
  inode : ∃ i, w.entries tmp = some i ∧ w.handles 0 = some i ∧ (w.files i).bytes = bytes ∧
    ∀ path, path ≠ tmp → w.entries path ≠ some i
  others : ∀ path, path ≠ tmp → w.bytesAt path = before.bytesAt path

variable {tmp : Path} {bytes : Content} {start : World}

theorem Filling.bytesAt (h : Filling tmp bytes start w) : w.bytesAt tmp = some bytes := by
  obtain ⟨i, hi, -, hbytes, -⟩ := h.inode
  rw [World.bytesAt, hi, Option.map_some, hbytes]

theorem Filling.write (h : Filling tmp [] start w) (bytes : Content) (choice : Choice) :
    ∃ w' written, answer host w (.writeAll 0 bytes) choice = (!choice.fails, w') ∧
      Filling tmp written start w' ∧ (choice.fails = false → written = bytes) := by
  obtain ⟨i, hi, hhandle, hbytes, hown⟩ := h.inode
  let written := if choice.fails then bytes.take choice.count else bytes
  refine ⟨(w.later choice.elapsed).setFile i ⟨written, (w.later choice.elapsed).now⟩, written, ?_,
    ⟨⟨i, hi, hhandle, ?_, hown⟩, fun path hne => ?_⟩, fun hfails => by simp [written, hfails]⟩
  · simp only [answer, act, writeAnswer, World.later, hhandle, hbytes, List.nil_append]
    rfl
  · simp [World.setFile]
  · rw [← h.others path hne]
    simp only [World.bytesAt, World.setFile, World.later]
    refine Option.map_congr fun j hj => ?_
    have hij : j ≠ i := by
      rintro rfl
      exact hown path hne hj
    rw [Function.update_of_ne hij]

theorem Filling.remove (h : Filling tmp bytes start w) (choice : Choice) :
    (∀ path, path ≠ tmp →
      (answer host w (.removeFile tmp) choice).2.bytesAt path = start.bytesAt path) ∧
    ((answer host w (.removeFile tmp) choice).2.entries tmp = none ↔ choice.fails = false) := by
  obtain ⟨i, hi, -⟩ := h.inode
  have hentry : (w.later choice.elapsed).entries tmp = some i := hi
  simp only [answer, act, removeAnswer, hentry, Option.isNone_some, Bool.false_eq_true, if_false]
  cases choice.fails with
  | true => exact ⟨h.others, by simp [hentry]⟩
  | false =>
      refine ⟨fun path hne => ?_, by simp [World.setEntry]⟩
      rw [← h.others path hne]
      simp [World.bytesAt, World.setEntry, World.later, hne]

/-- The file is written and synced. -/
def Filled (p : Nat → Choice) : Prop := (p 0).fails = false ∧ (p 1).fails = false

/-- The call with which the guard of a file that could not be filled removes it. -/
def guardCall (p : Nat → Choice) : Nat := if (p 0).fails then 1 else 2

theorem exec_fillTemp (bytes : Content) (h : Filling tmp [] start w) :
    ∃ r n w', Proc.exec (answer host) choices (fillTemp tmp bytes).run (0, w) =
        (some r, (n, w')) ∧ (∀ path, path ≠ tmp → w'.bytesAt path = start.bytesAt path) ∧
      (Filled choices → r = .ok () ∧ w'.bytesAt tmp = some bytes) ∧
      (¬Filled choices →
        (∃ e, r = .error e ∧ (classifyConditionalPublishError e).retainedPaths = []) ∧
        (w'.entries tmp = none ↔ (choices (guardCall choices)).fails = false)) := by
  obtain ⟨w₁, written, hwrite, hfilling, hwhole⟩ := h.write host bytes (choices 0)
  rw [fillTemp, exec_run_bind, exec_request, hwrite]
  have hdrop (n : Nat) (w : World) : Proc.exec (answer host) choices (dropGuard tmp []).run (n, w) =
      (some (.ok ()), (n + 1, (answer host w (.removeFile tmp) (choices n)).2)) := rfl
  unfold Filled guardCall
  by_cases h0 : (choices 0).fails = true
  · obtain ⟨hothers, hgone⟩ := hfilling.remove host (choices 1)
    simp only [h0, Bool.not_true, Bool.not_false, if_true, exec_run_bind, hdrop, exec_throw]
    exact ⟨_, _, _, rfl, hothers, fun h => Bool.noConfusion h.1,
      fun _ => ⟨⟨[.message "Could not write temporary XMP sidecar", .io false], rfl, rfl⟩, hgone⟩⟩
  rw [Bool.not_eq_true] at h0
  simp only [h0, Bool.not_false, Bool.not_true, Bool.false_eq_true, if_false, exec_run_bind,
    true_and]
  rw [exec_request]
  have hsynced : Filling tmp written start (w₁.later (choices 1).elapsed) :=
    ⟨hfilling.inode, hfilling.others⟩
  by_cases h1 : (choices 1).fails = true
  · obtain ⟨hothers, hgone⟩ := hsynced.remove host (choices 2)
    simp only [answer, act, h1, Bool.not_true, Bool.not_false, if_true, exec_run_bind, hdrop,
      exec_throw]
    exact ⟨_, _, _, rfl, hothers, fun h => Bool.noConfusion h,
      fun _ => ⟨⟨[.message "Could not sync temporary XMP sidecar", .io false], rfl, rfl⟩, hgone⟩⟩
  · rw [Bool.not_eq_true] at h1
    simp only [answer, act, h1, Bool.not_false, Bool.not_true, Bool.false_eq_true, if_false]
    rw [exec_request]
    refine ⟨_, _, _, rfl, hsynced.others, fun _ => ⟨rfl, ?_⟩, fun h => absurd trivial h⟩
    rw [← hwhole h0]
    exact hsynced.bytesAt

end run

/-! ## a write -/

/-- A file system in which no path names an inode that is still to be given out. -/
structure Disk extends World where
  bounded : ∀ path i, entries path = some i → i < next

namespace SidecarTask

variable (task : SidecarTask F) (fails : WriteFailures)

/-- From the attempt `k` on, the attempt `a` is the one that makes the temporary file. -/
inductive TempAt (create : Nat → Choice) (w : World) (sidecar : Path) : Nat → Nat → Prop where
  | here {k : Nat} (hworks : (create k).fails = false)
      (hfree : w.entries (task.sidecarTempPath sidecar (task.sequence k)) = none) :
      TempAt create w sidecar k k
  | next {k a : Nat} (hworks : (create k).fails = false)
      (htaken : w.entries (task.sidecarTempPath sidecar (task.sequence k)) ≠ none)
      (h : TempAt create w sidecar (k + 1) a) : TempAt create w sidecar k a

variable {task} {create : Nat → Choice} {sidecar : Path} {k a : Nat}

theorem TempAt.le {w : World} (h : task.TempAt create w sidecar k a) : k ≤ a := by
  induction h with
  | here => exact Nat.le_refl _
  | next _ _ _ ih => omega

theorem TempAt.free {w : World} (h : task.TempAt create w sidecar k a) :
    w.entries (task.sidecarTempPath sidecar (task.sequence a)) = none := by
  induction h with
  | here _ hfree => exact hfree
  | next _ _ _ ih => exact ih

theorem TempAt.works {w : World} (h : task.TempAt create w sidecar k a) :
    (create k).fails = false := by
  cases h with
  | here hworks => exact hworks
  | next hworks => exact hworks

theorem TempAt.eq {w : World} {b : Nat} (h : task.TempAt create w sidecar k a)
    (h' : task.TempAt create w sidecar k b) : a = b := by
  induction h with
  | here _ hfree =>
      cases h' with
      | here => rfl
      | next _ htaken => exact absurd hfree htaken
  | next _ htaken _ ih =>
      cases h' with
      | here _ hfree' => exact absurd hfree' htaken
      | next _ _ h' => exact ih h'

theorem TempAt.of_entries {w w' : World} (h : task.TempAt create w sidecar k a)
    (hentries : w'.entries = w.entries) : task.TempAt create w' sidecar k a := by
  induction h with
  | here hworks hfree => exact .here hworks (by rw [hentries]; exact hfree)
  | next hworks htaken _ ih => exact .next hworks (by rw [hentries]; exact htaken) ih

theorem filling_create (w : World) (tmp : Path)
    (hbounded : ∀ path i, w.entries path = some i → i < w.next) :
    Filling tmp [] w { w.create tmp [] with
      handles := Function.update w.handles 0 (some w.next) } := by
  have hother {path : Path} (hne : path ≠ tmp) : w.entries path ≠ some w.next :=
    fun h => Nat.lt_irrefl _ (hbounded path _ h)
  refine ⟨⟨w.next, ?_, ?_, ?_, fun path hne => ?_⟩, fun path hne => ?_⟩
  · simp [World.create, World.setEntry, World.setFile]
  · simp
  · simp [World.create, World.setEntry, World.setFile]
  · simpa [World.create, World.setEntry, World.setFile, hne] using hother hne
  · simp only [World.bytesAt, World.create, World.setEntry, World.setFile,
      Function.update_of_ne hne]
    refine Option.map_congr fun j hj => ?_
    have hold : j ≠ w.next := by
      rintro rfl
      exact hother hne hj
    rw [Function.update_of_ne hold]

theorem exec_createUniqueSidecarTemp (host : LandHost) (task : SidecarTask F)
    (create : Nat → Choice) (sidecar : Path) (fuel k : Nat) (w : World)
    (hbounded : ∀ path i, w.entries path = some i → i < w.next) :
    ∃ r n w', Proc.exec (answer host) create (task.createUniqueSidecarTemp sidecar fuel k).run
        (k, w) = (r, (n, w')) ∧
      ((∃ a, task.TempAt create w sidecar k a ∧ a < k + fuel ∧
          r = some (.ok (task.sidecarTempPath sidecar (task.sequence a))) ∧
          Filling (task.sidecarTempPath sidecar (task.sequence a)) [] w w') ∨
        ((∀ a, task.TempAt create w sidecar k a → k + fuel ≤ a) ∧
          (∀ tmp, r ≠ some (.ok tmp)) ∧ ∀ path, w'.bytesAt path = w.bytesAt path)) := by
  induction fuel generalizing k w with
  | zero =>
      exact ⟨_, _, _, rfl, .inr ⟨fun a h => h.le, fun tmp h => by contradiction, fun _ => rfl⟩⟩
  | succ fuel ih =>
      rw [createUniqueSidecarTemp, exec_run_bind, exec_request]
      simp only [answer, act, createAnswer]
      by_cases hfails : (create k).fails = true
      · rw [if_pos hfails]
        refine ⟨_, _, _, rfl, .inr ⟨fun a h => ?_, fun tmp h => (by cases h), fun _ => rfl⟩⟩
        rw [h.works] at hfails
        contradiction
      rw [if_neg hfails]
      rw [Bool.not_eq_true] at hfails
      rcases hentry : w.entries (task.sidecarTempPath sidecar (task.sequence k)) with _ | i
      · have hfree : (w.later (create k).elapsed).entries
            (task.sidecarTempPath sidecar (task.sequence k)) = none := hentry
        have hfilling := filling_create
          (w.later (create k).elapsed) (task.sidecarTempPath sidecar (task.sequence k)) hbounded
        rw [hfree]
        exact ⟨_, _, _, rfl, .inl ⟨k, .here hfails hentry, by omega, rfl, hfilling.inode,
          hfilling.others⟩⟩
      · have htaken : (w.later (create k).elapsed).entries
            (task.sidecarTempPath sidecar (task.sequence k)) = some i := hentry
        have hne : w.entries (task.sidecarTempPath sidecar (task.sequence k)) ≠ none := by
          simp [hentry]
        have hnext {a : Nat} : task.TempAt create w sidecar k a →
            task.TempAt create w sidecar (k + 1) a := by
          rintro (⟨_, hfree⟩ | ⟨_, _, h⟩)
          · exact absurd hfree hne
          · exact h
        rw [htaken]
        obtain ⟨r, n, w', hrun, hcases⟩ := ih (k + 1) (w.later (create k).elapsed) hbounded
        refine ⟨r, n, w', hrun, ?_⟩
        rcases hcases with ⟨a, hat, hlt, hr, hfilling⟩ | ⟨hlate, hr, hsame⟩
        · refine .inl ⟨a, .next hfails hne ?_, by omega, hr, hfilling.inode, hfilling.others⟩
          exact hat.of_entries rfl
        · refine .inr ⟨fun a h => ?_, hr, hsame⟩
          have := hlate a ((hnext h).of_entries rfl)
          omega

end SidecarTask

/-! ## what a write leaves -/

/-- The failures from which a write recovers once the temporary file is made: the guard removes a
file that could not be filled, and a filled one is published, or its publication ends in an error
that retains it. -/
def WriteFailures.Recovers (fails : WriteFailures) (replaces : Bool) (tmp sidecar : Path) : Prop :=
  (¬Filled fails.fill → (fails.fill (guardCall fails.fill)).fails = false) ∧
    (Filled fails.fill → tmp ≠ sidecar ∧
      if replaces then ReplaceWorks fails.publish else PublishWorks fails.publish)

namespace SidecarTask

variable (task : SidecarTask F) (fails : WriteFailures)

/-- The file system that a write may leave: the temporary file is gone or retained by the error,
and at the sidecar is the packet, or after an error what was there. -/
def Settles (before : World) (o : Outcome) : Prop :=
  ∀ r, o.result = some r →
    (∀ tmp, o.created = some tmp → o.world.entries tmp = none ∨
      ∃ e, r = .error e ∧ tmp ∈ (classifyConditionalPublishError e).retainedPaths) ∧
    ∀ sidecar, task.sidecarPath = some sidecar →
      (∃ bytes, task.packet fails (before.bytesAt sidecar) = .ok (some bytes) ∧
        o.world.bytesAt sidecar = some bytes) ∨
      ((∃ e, r = .error e) ∨ task.packet fails (before.bytesAt sidecar) = .ok none) ∧
        o.world.bytesAt sidecar = before.bytesAt sidecar

theorem settles_iff_tidy {before w : World} {sidecar tmp : Path} {bytes : Content}
    {result : Option (Except PublishError Unit)} (hsidecar : task.sidecarPath = some sidecar)
    (hpacket : task.packet fails (before.bytesAt sidecar) = .ok (some bytes)) :
    task.Settles fails before ⟨some tmp, result, w⟩ ↔
      Tidy (before.bytesAt sidecar) bytes tmp sidecar result w := by
  simp [Settles, Tidy, hsidecar, hpacket]

theorem install_iff (disk : Disk) (fuel : Nat) {sidecar : Path} {bytes : Content}
    (hsidecar : task.sidecarPath = some sidecar)
    (hpacket : task.packet fails (disk.bytesAt sidecar) = .ok (some bytes)) :
    task.Settles fails disk.toWorld
        (task.install fails sidecar (disk.bytesAt sidecar) bytes fuel disk.toWorld) ↔
      ∀ a < fuel, task.TempAt fails.create disk.toWorld sidecar 0 a →
        fails.Recovers (disk.bytesAt sidecar).isSome
          (task.sidecarTempPath sidecar (task.sequence a)) sidecar := by
  obtain ⟨r, n, w₁, hcreate, ⟨a, hat, hlt, rfl, hfilling⟩ | ⟨hlate, hnone, hsame⟩⟩ :=
    exec_createUniqueSidecarTemp task.host task fails.create sidecar fuel 0 disk.toWorld
      disk.bounded
  · have hone : (∀ b < fuel, task.TempAt fails.create disk.toWorld sidecar 0 b →
        fails.Recovers (disk.bytesAt sidecar).isSome
          (task.sidecarTempPath sidecar (task.sequence b)) sidecar) ↔
        fails.Recovers (disk.bytesAt sidecar).isSome
          (task.sidecarTempPath sidecar (task.sequence a)) sidecar := by
      refine ⟨fun h => h a (by omega) hat, fun h b _ hb => ?_⟩
      rw [← hat.eq hb]
      exact h
    rw [hone]
    have hfree := hat.free
    generalize task.sidecarTempPath sidecar (task.sequence a) = tmp at *
    obtain ⟨r, m, w₂, hfill, hothers, hfilled, hnot⟩ := exec_fillTemp task.host
      fails.fill bytes hfilling
    simp only [install, stage, hcreate, hfill]
    by_cases hf : Filled fails.fill
    · obtain ⟨rfl, htmp⟩ := hfilled hf
      refine (task.settles_iff_tidy fails hsidecar hpacket).trans ?_
      simp only [WriteFailures.Recovers, hf, not_true_eq_false, false_imp_iff, true_imp_iff,
        true_and]
      rcases hbefore : disk.bytesAt sidecar with _ | other
      · refine (new_tidy_iff task.host fails.publish htmp rfl).trans (and_congr_left fun _ => ?_)
        refine ⟨fun hnone hne => ?_, fun hne => ?_⟩
        · rw [← hne] at hnone
          exact entries_of_bytesAt htmp hnone
        · have hnone := (hothers sidecar (Ne.symm hne)).trans hbefore
          exact Option.map_eq_none_iff.mp hnone
      · have hne : tmp ≠ sidecar := by
          rintro rfl
          rw [World.bytesAt, hfree] at hbefore
          contradiction
        have hfinal : w₂.bytesAt sidecar = some other := (hothers sidecar hne.symm).trans hbefore
        refine (replace_tidy_iff task.host fails.publish hne ⟨htmp, hfinal⟩ rfl).trans ?_
        simp [hne]
    · obtain ⟨⟨e, rfl, hbare⟩, hgone⟩ := hnot hf
      refine (task.settles_iff_tidy fails hsidecar hpacket).trans ?_
      rw [tidy_error, hbare]
      simp only [WriteFailures.Recovers, hf, not_false_eq_true, false_imp_iff, true_imp_iff,
        and_true, List.not_mem_nil, or_false]
      rw [← hgone]
      refine and_iff_left_of_imp fun hnone => .inr ?_
      by_cases hne : sidecar = tmp
      · rw [hne, World.bytesAt, World.bytesAt, hnone, hfree]
        rfl
      · exact hothers sidecar hne
  · refine iff_of_true ?_ (fun a hlt hat => absurd (hlate a hat) (by omega))
    simp only [install, stage, hcreate]
    rcases r with _ | error | tmp
    · intro r hr
      cases hr
    · intro r hr
      cases hr
      refine ⟨fun tmp h => (by cases h), fun sidecar' _ => .inr ⟨.inl ⟨_, rfl⟩, hsame sidecar'⟩⟩
    · exact absurd rfl (hnone tmp)

/-- **A write settles** exactly if each attempt that gets a temporary file recovers. -/
theorem writeSidecar_iff (disk : Disk) (fuel : Nat) :
    task.Settles fails disk.toWorld (task.writeSidecar fails fuel disk.toWorld) ↔
      ∀ sidecar bytes, task.sidecarPath = some sidecar → fails.read = false →
        task.packet fails (disk.bytesAt sidecar) = .ok (some bytes) →
        ∀ a < fuel, task.TempAt fails.create disk.toWorld sidecar 0 a →
          fails.Recovers (disk.bytesAt sidecar).isSome
            (task.sidecarTempPath sidecar (task.sequence a)) sidecar := by
  unfold writeSidecar
  rcases hsidecar : task.sidecarPath with _ | sidecar
  · refine iff_of_true ?_ (fun _ _ h => by contradiction)
    by_cases hempty : task.write.isEmpty = true
    · simp [Settles, hempty, hsidecar]
    · simp [Settles, hempty, hsidecar]
  by_cases hread : fails.read = true
  · refine iff_of_true ?_ (fun _ _ _ h => absurd h (by simp [hread]))
    simp [Settles, hread, hsidecar]
  simp only [hread, Bool.false_eq_true, if_false]
  rcases hpacket : task.packet fails (disk.bytesAt sidecar) with error | _ | bytes
  · refine iff_of_true ?_ (fun _ _ h _ hok => ?_)
    · simp [Settles, hsidecar]
    · cases h
      rw [hpacket] at hok
      cases hok
  · refine iff_of_true ?_ (fun _ _ h _ hok => ?_)
    · simp [Settles, hsidecar, hpacket]
    · cases h
      rw [hpacket] at hok
      cases hok
  · refine (task.install_iff fails disk fuel hsidecar hpacket).trans ?_
    constructor
    · intro h _ _ hs _ _
      cases hs
      exact h
    · intro h
      exact h sidecar bytes rfl (by simp) hpacket

end SidecarTask

/-- A title for the photo at `media`, beside which there is no sidecar. -/
def titleTask (media : Path) : SidecarTask Int where
  host := plainLandHost
  fmt := wholeDegrees
  toolkit := ⟨fun _ => none, fun _ => [60]⟩
  mediaPath := media
  write := (titleWrite (some "Lake")).toMetadataWrite
  tempSuffix := ".kei-tmp"
  pid := 7
  sequence n := n

theorem emptyWorld_bounded (path : Path) (i : Nat) (h : emptyWorld.entries path = some i) :
    i < emptyWorld.next := by cases h

def emptyDisk : Disk where
  toWorld := emptyWorld
  bounded := emptyWorld_bounded

/-- Every call of the publication fails. -/
def publicationFails : WriteFailures where
  read := false
  newMeta := false
  apply := false
  create _ := works 0
  fill _ := works 0
  publish _ := { works 0 with fails := true }

/-- The temporary file stays behind, and the error retains nothing. -/
theorem temp_left_behind :
    ¬(titleTask "/p/a.jpg").Settles publicationFails emptyDisk.toWorld
      ((titleTask "/p/a.jpg").writeSidecar publicationFails 1 emptyDisk.toWorld) := by
  have hsidecar : (titleTask "/p/a.jpg").sidecarPath = some "/p/a.jpg.xmp" := by decide +kernel
  have hpacket : (titleTask "/p/a.jpg").packet publicationFails (emptyDisk.bytesAt "/p/a.jpg.xmp") =
      .ok (some [60]) := rfl
  have hinstall := (titleTask "/p/a.jpg").install_iff publicationFails emptyDisk 1 hsidecar hpacket
  have hat : (titleTask "/p/a.jpg").TempAt publicationFails.create emptyWorld "/p/a.jpg.xmp" 0 0 :=
    .here rfl rfl
  intro hsettles
  rcases ((hinstall.mp hsettles 0 Nat.one_pos hat).2 ⟨rfl, rfl⟩).2 with hrename | ⟨hlink, -⟩
  · cases hrename
  · cases hlink

end Kei.Sidecar
