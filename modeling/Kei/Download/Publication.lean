import Kei.Download.Attempts

/-!
# Kei.Download.Publication

What a publication makes of a temporary file that has the content.

A publication removes the temporary file, moves or links it to the final path,
or exchanges the two.  `Kept` lists what an assertion about the view has to
stand; under it a publication that succeeds leaves the content at the final
path.
-/

namespace Kei.Download

open Proc Relation

/-- What is true of the view whatever a publication does. -/
structure Kept (host : LandHost) (a : Attempt) (content : Content) (I : View → Prop) : Prop where
  remove : ∀ w c, I (a.view w) → I (a.view (removeAnswer w c a.partPath).2)
  rename : ∀ w c, (a.view w).handle = none → I (a.view w) →
    I (a.view (renameNoReplaceAnswer w c a.partPath a.downloadPath).2)
  link : ∀ w c, (a.view w).handle = none → I (a.view w) →
    I (a.view (hardLinkAnswer w c a.partPath a.downloadPath).2)
  exchange : ∀ w c, (a.view w).handle = none →
    (∀ bytes, (a.view w).finalBytes = some bytes →
      bytes = content ∨ a.publication = .replaceTruncated (fingerprintOf host bytes)) →
    I (a.view w) → I (a.view (exchangeAnswer w c a.partPath a.downloadPath).2)

/-! ## what the calls do to the view -/

theorem Attempt.view_part (a : Attempt) (w : World) :
    (a.view w).partBytes = w.bytesAt a.partPath := rfl

theorem Attempt.view_final (a : Attempt) (w : World) :
    (a.view w).finalBytes = w.bytesAt a.downloadPath := rfl

section views

variable {a : Attempt} {w : World} {c : Choice} {path path' : Path}

theorem rename_renamed
    (h : (renameNoReplaceAnswer w c a.partPath a.downloadPath).1 = .renamed) :
    (a.view (renameNoReplaceAnswer w c a.partPath a.downloadPath).2).partBytes = none ∧
      (a.view (renameNoReplaceAnswer w c a.partPath a.downloadPath).2).finalBytes =
        (a.view w).partBytes := by
  unfold renameNoReplaceAnswer at h ⊢
  split at h <;> try contradiction
  split at h <;> try contradiction
  split at h <;> try contradiction
  next hsource =>
  split at h <;> try contradiction
  next htarget =>
  have hne : a.partPath ≠ a.downloadPath := by
    intro heq
    rw [heq] at hsource
    simp_all
  simp_all [Attempt.view, World.bytesAt, World.setEntry]

theorem rename_same
    (h : (renameNoReplaceAnswer w c a.partPath a.downloadPath).1 ≠ .renamed) :
    (renameNoReplaceAnswer w c a.partPath a.downloadPath).2 = w := by
  unfold renameNoReplaceAnswer at h ⊢
  grind

theorem link_opened (h : (hardLinkAnswer w c a.partPath a.downloadPath).1 = .opened) :
    (a.view (hardLinkAnswer w c a.partPath a.downloadPath).2).partBytes = (a.view w).partBytes ∧
      (a.view (hardLinkAnswer w c a.partPath a.downloadPath).2).finalBytes =
        (a.view w).partBytes := by
  unfold hardLinkAnswer at h ⊢
  split at h <;> try contradiction
  next hsource =>
  split at h <;> try contradiction
  next htarget =>
  have hne : a.partPath ≠ a.downloadPath := by
    intro heq
    rw [heq] at hsource
    simp_all
  simp_all [Attempt.view, World.bytesAt, World.setEntry]

theorem link_same (h : (hardLinkAnswer w c a.partPath a.downloadPath).1 ≠ .opened) :
    (hardLinkAnswer w c a.partPath a.downloadPath).2 = w := by
  unfold hardLinkAnswer at h ⊢
  grind

theorem exchange_renamed
    (h : (exchangeAnswer w c a.partPath a.downloadPath).1 = .renamed) :
    (a.view (exchangeAnswer w c a.partPath a.downloadPath).2).partBytes =
        (a.view w).finalBytes ∧
      (a.view (exchangeAnswer w c a.partPath a.downloadPath).2).finalBytes =
        (a.view w).partBytes := by
  unfold exchangeAnswer at h ⊢
  split at h <;> try contradiction
  split at h <;> try contradiction
  split at h <;> try contradiction
  by_cases hne : a.partPath = a.downloadPath
  · simp_all [Attempt.view, World.bytesAt, World.setEntry]
  · simp_all [Attempt.view, World.bytesAt, World.setEntry]

theorem exchange_same (h : (exchangeAnswer w c a.partPath a.downloadPath).1 ≠ .renamed) :
    (exchangeAnswer w c a.partPath a.downloadPath).2 = w := by
  unfold exchangeAnswer at h ⊢
  grind

theorem remove_final (hne : a.partPath ≠ a.downloadPath) :
    (a.view (removeAnswer w c a.partPath).2).finalBytes = (a.view w).finalBytes := by
  unfold removeAnswer
  split
  · rfl
  · split
    · rfl
    · simp [Attempt.view, World.bytesAt, World.setEntry, hne.symm]

@[simp] theorem link_handle :
    (a.view (hardLinkAnswer w c path path').2).handle = (a.view w).handle := by
  unfold hardLinkAnswer
  grind [Attempt.view, World.setEntry]

@[simp] theorem exchange_handle :
    (a.view (exchangeAnswer w c path path').2).handle = (a.view w).handle := by
  unfold exchangeAnswer
  grind [Attempt.view, World.setEntry]

end views

/-! ## the stages of a publication -/

section stages

variable {host : LandHost} {a : Attempt} {rely : World → World → Prop} {since : Option Int}
  {I P : View → Prop}

/-- The content is at the final path. -/
def Published (a : Attempt) (content : Content) (v : View) : Prop :=
  a.partPath ≠ a.downloadPath → v.finalBytes = some content

/-- The two files before an exchange. -/
def Swappable (content : Content) (displaced : Content → Prop) (v : View) : Prop :=
  v.handle = none ∧ v.partBytes = some content ∧ ∃ bytes, v.finalBytes = some bytes ∧
    displaced bytes

/-- The two files after an exchange. -/
def Swapped (content : Content) (v : View) : Prop :=
  v.handle = none ∧ v.finalBytes = some content

variable (hrely : a.Undisturbed rely)
include hrely

theorem publishing_ensure {condition : Bool} {error : PublishError} :
    Lands host a rely since I P (ensure condition error) (fun _ v => condition ∧ P v) :=
  lands_ite (fun h => lands_pure hrely (fun _ _ hP => ⟨h, hP⟩)) (fun _ => lands_throw hrely)

theorem publishing_readFile {path : Path} {bytesOf : View → Option Content}
    (hbytes : ∀ w, bytesOf (a.view w) = w.bytesAt path) :
    Lands host a rely since I P (request (.readFile path))
      (fun r v => P v ∧ ∀ bytes, r = some bytes → bytesOf v = some bytes) := by
  refine lands_look hrely (fun _ _ => rfl) (fun w c _ _ hP => ⟨hP, fun bytes hread => ?_⟩)
  have hread' : (if c.fails then none else w.bytesAt path) = some bytes := hread
  split at hread'
  · contradiction
  · exact (hbytes w).trans hread'

theorem publishing_fingerprint {path : Path} {bytesOf : View → Option Content}
    (hbytes : ∀ w, bytesOf (a.view w) = w.bytesAt path) :
    Lands host a rely since I P (fingerprint host path)
      (fun r v => P v ∧ ∃ bytes, bytesOf v = some bytes ∧ r = fingerprintOf host bytes) := by
  refine lands_bind (publishing_readFile hrely hbytes) (fun r => ?_)
  cases r with
  | none => exact lands_throw hrely
  | some bytes => exact lands_pure hrely (fun _ _ hP => ⟨hP.1, bytes, hP.2 bytes rfl, rfl⟩)

variable {content : Content} (hkept : Kept host a content I)
include hkept

theorem publishing_removePart :
    Lands host a rely since I (fun v => Published a content v) (request (.removeFile a.partPath))
      (fun _ v => Published a content v) := by
  refine lands_lift hrely (fun w c _ hI hP => ⟨hkept.remove w c hI, fun hne => ?_⟩)
  exact (remove_final hne).trans (hP hne)

theorem publishing_exchange {displaced : Content → Prop}
    (hdisplaced : ∀ bytes, displaced bytes →
      bytes = content ∨ a.publication = .replaceTruncated (fingerprintOf host bytes)) :
    Lands host a rely since I (Swappable content displaced)
      (request (.renameExchange a.partPath a.downloadPath))
      (fun r v => r = RenameResult.renamed → Swapped content v) := by
  refine lands_lift hrely (fun w c _ hI hP => ?_)
  obtain ⟨hhandle, hpart, bytes, hfinal, hbytes⟩ := hP
  refine ⟨hkept.exchange w c hhandle (fun bytes' hbytes' => ?_) hI, fun hrenamed => ?_⟩
  · cases hfinal.symm.trans hbytes'
    exact hdisplaced bytes hbytes
  · exact ⟨by rw [← hhandle]; exact exchange_handle,
      ((exchange_renamed hrenamed).2).trans hpart⟩

theorem publishing_exchangeRepairFiles {expected : ExistingFileFingerprint}
    (hpublication : a.publication = .replaceTruncated expected) :
    Lands host a rely since I
      (Swappable content (fun bytes => fingerprintOf host bytes = expected))
      (exchangeRepairFiles host a.partPath a.downloadPath expected)
      (fun displaced v => displaced = a.partPath ∧ Swapped content v) := by
  have hfailed : ∀ P : View → Prop, Lands host a rely since I P
      (exchangeFailed host a.downloadPath expected)
      (fun displaced v => displaced = a.partPath ∧ Swapped content v) := by
    intro P
    refine lands_bind (publishing_readFile hrely a.view_final) (fun found => ?_)
    cases found with
    | none => exact lands_throw hrely
    | some bytes => exact lands_ite (fun _ => lands_throw hrely) (fun _ => lands_throw hrely)
  refine lands_bind (publishing_exchange hrely hkept (fun bytes hbytes => .inr ?_)) (fun r => ?_)
  · rw [hpublication, hbytes]
  · cases r with
    | renamed => exact lands_pure hrely (fun _ _ hP => ⟨rfl, hP rfl⟩)
    | notFound => exact lands_throw hrely
    | alreadyExists => exact hfailed _
    | unsupported => exact hfailed _
    | failed => exact hfailed _

theorem publishing_restore {displaced : Path} {replacement : ExistingFileFingerprint} :
    Lands host a rely since I (Swapped content)
      (restoreRepairTargetIfUnchanged host a.partPath a.downloadPath displaced replacement)
      (fun _ _ => True) := by
  refine lands_bind (publishing_readFile hrely a.view_final) (fun found => ?_)
  cases found with
  | none => exact lands_pure hrely (fun _ _ _ => trivial)
  | some bytes =>
      refine lands_ite (fun _ => lands_adapt ?_) (fun _ => lands_pure hrely (fun _ _ _ => trivial))
      refine lands_bind (R := fun _ _ => True) (lands_lift hrely (fun w c _ hI hP =>
        ⟨hkept.exchange w c hP.1.1 (fun bytes hbytes => .inl ?_) hI, trivial⟩)) (fun r => ?_)
      · exact Option.some.inj (hbytes.symm.trans hP.1.2)
      · cases r with
        | renamed =>
            exact lands_bind (publishing_fingerprint hrely a.view_part) (fun _ =>
              lands_bind (publishing_ensure hrely) (fun _ =>
                lands_pure hrely (fun _ _ _ => trivial)))
        | notFound | alreadyExists | unsupported | failed => exact lands_throw hrely

theorem publishing_giveBack {displaced : Path} {replacement : ExistingFileFingerprint}
    {cause error : PublishError} {R : Unit → View → Prop} :
    Lands host a rely since I (Swapped content)
      (giveBack host a.partPath a.downloadPath displaced replacement cause error) R := by
  refine lands_bind (lands_adapt (publishing_restore hrely hkept)) (fun r => ?_)
  cases r with
  | true => exact lands_throw hrely
  | false => exact lands_throw hrely

theorem publishing_checkDisplaced {expected replacement : ExistingFileFingerprint} :
    Lands host a rely since I (Swapped content)
      (checkDisplaced host a.partPath a.downloadPath a.partPath expected replacement)
      (fun _ => Swapped content) := by
  refine lands_bind (publishing_readFile hrely a.view_part) (fun found => ?_)
  have hswapped : ∀ v, I v →
      (Swapped content v ∧ ∀ bytes, found = some bytes → v.partBytes = some bytes) →
      Swapped content v := fun _ _ hP => hP.1
  cases found with
  | none =>
      exact lands_conseq (publishing_giveBack hrely hkept) hswapped (fun _ _ _ hR => hR)
  | some bytes =>
      refine lands_ite (fun _ => lands_pure hrely (fun _ _ hP => hP.1)) (fun _ => ?_)
      exact lands_conseq (publishing_giveBack hrely hkept) hswapped (fun _ _ _ hR => hR)

theorem publishing_replace {expected : ExistingFileFingerprint}
    (hpublication : a.publication = .replaceTruncated expected) :
    Lands host a rely since I (fun v => v.handle = none ∧ v.partBytes = some content)
      (replaceFileIfUnchanged host a.partPath a.downloadPath expected none)
      (fun _ => Published a content) := by
  refine lands_bind (lands_adapt (publishing_fingerprint hrely a.view_final)) (fun current =>
    lands_bind (publishing_ensure hrely) (fun _ =>
    lands_bind (lands_adapt (publishing_fingerprint hrely a.view_part)) (fun replacement =>
    lands_bind (publishing_ensure hrely) (fun _ => ?_))))
  refine lands_bind (lands_conseq (publishing_exchangeRepairFiles hrely hkept hpublication)
    (fun v _ hP => ?_) (fun _ _ _ hR => hR)) (fun displaced => ?_)
  · obtain ⟨-, ⟨hcurrent, ⟨hhandle, hpart⟩, bytes, hbytes, hfingerprint⟩, -⟩ := hP
    have hexpected : current = expected := by simpa using hcurrent
    exact ⟨hhandle, hpart, bytes, hbytes, hfingerprint.symm.trans hexpected⟩
  · refine lands_pre (fun _ _ hP => hP.1) (fun hdisplaced => ?_)
    subst hdisplaced
    refine lands_bind (lands_pure hrely (fun _ _ hP => hP.2)) (fun _ =>
      lands_bind (publishing_checkDisplaced hrely hkept) (fun _ => ?_))
    refine lands_bind (lands_conseq (publishing_removePart hrely hkept)
      (fun _ _ hP _ => hP.2) (fun _ _ _ hR => hR)) (fun _ => lands_pure hrely (fun _ _ hP => hP))

/-- What is known after a publication that does not replace. -/
def NoReplaced (a : Attempt) (content : Content) : PublishResult → View → Prop
  | .published, v => Published a content v
  | .destinationExists, v => v.handle = none ∧ v.partBytes = some content

omit hkept in
theorem publishing_destinationExistsOr :
    Lands host a rely since I (fun v => v.handle = none ∧ v.partBytes = some content)
      (destinationExistsOr a.downloadPath) (NoReplaced a content) := by
  refine lands_bind (lands_look hrely (R := fun _ v => v.handle = none ∧ v.partBytes = some content)
    (fun _ _ => rfl) (fun _ _ _ _ hP => hP)) (fun r => ?_)
  cases r with
  | true => exact lands_pure hrely (fun _ _ hP => hP)
  | false => exact lands_throw hrely

theorem publishing_byHardLink :
    Lands host a rely since I (fun v => v.handle = none ∧ v.partBytes = some content)
      (publishPartByHardLink a.partPath a.downloadPath) (NoReplaced a content) := by
  have hlink : Lands host a rely since I (fun v => v.handle = none ∧ v.partBytes = some content)
      (request (.hardLink a.partPath a.downloadPath))
      (fun r v => (r = OpenResult.opened → Published a content v) ∧
        (r ≠ OpenResult.opened → v.handle = none ∧ v.partBytes = some content)) := by
    refine lands_lift hrely (fun w c _ hI hP => ⟨hkept.link w c hP.1 hI, ?_, ?_⟩)
    · exact fun hopened _ => ((link_opened hopened).2).trans hP.2
    · intro hne
      have hsame : (act host w (.hardLink a.partPath a.downloadPath) c).2 = w := link_same hne
      rw [hsame]
      exact hP
  refine lands_bind hlink (fun r => ?_)
  cases r with
  | opened =>
      refine lands_bind (lands_conseq (publishing_removePart hrely hkept) (fun _ _ hP => hP.1 rfl)
        (fun _ _ _ hR => hR)) (fun _ => lands_pure hrely (fun _ _ hP => hP))
  | alreadyExists => exact lands_pure hrely (fun _ _ hP => hP.2 (by simp))
  | failed =>
      exact lands_conseq (publishing_destinationExistsOr hrely)
        (fun _ _ hP => hP.2 (by simp)) (fun _ _ _ hR => hR)

theorem publishing_noReplace :
    Lands host a rely since I (fun v => v.handle = none ∧ v.partBytes = some content)
      (publishPartNoReplace a.partPath a.downloadPath) (NoReplaced a content) := by
  have hrename : Lands host a rely since I (fun v => v.handle = none ∧ v.partBytes = some content)
      (request (.renameNoReplace a.partPath a.downloadPath))
      (fun r v => (r = RenameResult.renamed → Published a content v) ∧
        (r ≠ RenameResult.renamed → v.handle = none ∧ v.partBytes = some content)) := by
    refine lands_lift hrely (fun w c _ hI hP => ⟨hkept.rename w c hP.1 hI, ?_, ?_⟩)
    · exact fun hrenamed _ => ((rename_renamed hrenamed).2).trans hP.2
    · intro hne
      have hsame : (act host w (.renameNoReplace a.partPath a.downloadPath) c).2 = w :=
        rename_same hne
      rw [hsame]
      exact hP
  refine lands_bind hrename (fun r => ?_)
  cases r with
  | renamed => exact lands_pure hrely (fun _ _ hP => hP.1 rfl)
  | alreadyExists => exact lands_pure hrely (fun _ _ hP => hP.2 (by simp))
  | unsupported =>
      exact lands_conseq (publishing_byHardLink hrely hkept) (fun _ _ hP => hP.2 (by simp))
        (fun _ _ _ hR => hR)
  | notFound | failed =>
      exact lands_conseq (publishing_destinationExistsOr hrely)
        (fun _ _ hP => hP.2 (by simp)) (fun _ _ _ hR => hR)

theorem publishing_deduplicate :
    Lands host a rely since I (fun v => v.handle = none ∧ v.partBytes = some content)
      (deduplicate host a.partPath a.downloadPath) (fun _ => Published a content) := by
  refine lands_bind (publishing_fingerprint hrely a.view_part) (fun part =>
    lands_bind (publishing_fingerprint hrely a.view_final) (fun final =>
    lands_bind (publishing_ensure hrely) (fun _ => ?_)))
  refine lands_bind (lands_conseq (publishing_removePart hrely hkept) (fun v _ hP _ => ?_)
    (fun _ _ _ hR => hR)) (fun r => ?_)
  · obtain ⟨hsame, ⟨⟨-, hcontent⟩, bytes, hbytes, hpart⟩, bytes', hbytes', hfinal⟩ := hP
    have heq : fingerprintOf host bytes = fingerprintOf host bytes' := by
      rw [← hpart, ← hfinal]
      simpa using hsame
    have hsha : host.sha256 bytes = host.sha256 bytes' := congrArg (·.sha256) heq
    rw [hbytes', ← host.sha256_inj bytes bytes' hsha, ← hbytes, hcontent]
  · cases r with
    | removed => exact lands_pure hrely (fun _ _ hP => hP)
    | notFound => exact lands_throw hrely
    | failed => exact lands_throw hrely

/-- **A publication puts the content of the temporary file at the final path.** -/
theorem lands_publish :
    Lands host a rely since I (fun v => v.handle = none ∧ v.partBytes = some content)
      (publish host a.partPath a.downloadPath a.publication) (fun _ => Published a content) := by
  refine lands_adapt ?_
  cases hpublication : a.publication with
  | replaceTruncated expected => exact publishing_replace hrely hkept hpublication
  | noReplace =>
      refine lands_bind (publishing_noReplace hrely hkept) (fun r => ?_)
      cases r with
      | published => exact lands_pure hrely (fun _ _ hP => hP)
      | destinationExists => exact publishing_deduplicate hrely hkept

end stages

/-! ## the calls of a publication that does not replace -/

section calls

variable {host : LandHost} {part final : Path} {G : Call → Prop}
  (hlook : ∀ path, G (.readFile path) ∧ G (.tryExists path))
include hlook

theorem within_fingerprint {path : Path} : Within G (fingerprint host path) := by
  refine within_bind (within_lift (hlook path).1) (fun r => ?_)
  cases r with
  | none => exact within_throw
  | some bytes => exact within_pure

theorem within_destinationExistsOr {path : Path} : Within G (destinationExistsOr path) := by
  refine within_bind (within_lift (hlook path).2) (fun r => ?_)
  cases r with
  | true => exact within_pure
  | false => exact within_throw

variable (hremove : G (.removeFile part))
include hremove

theorem within_deduplicate : Within G (deduplicate host part final) := by
  refine within_bind (within_fingerprint hlook) fun _ =>
    within_bind (within_fingerprint hlook) fun _ =>
    within_bind (within_ite within_pure within_throw) fun _ =>
    within_bind (within_lift hremove) fun r => ?_
  cases r with
  | removed => exact within_pure
  | notFound => exact within_throw
  | failed => exact within_throw

theorem within_noReplace (hrename : G (.renameNoReplace part final))
    (hlink : G (.hardLink part final)) :
    Within G (publishPartToFinal host part final .noReplace) := by
  have hpublish : Within G (publishPartNoReplace part final) := by
    refine within_bind (within_lift hrename) (fun r => ?_)
    cases r with
    | renamed => exact within_pure
    | alreadyExists => exact within_pure
    | unsupported =>
        refine within_bind (within_lift hlink) (fun r => ?_)
        cases r with
        | opened => exact within_bind (within_lift hremove) (fun _ => within_pure)
        | alreadyExists => exact within_pure
        | failed => exact within_destinationExistsOr hlook
    | notFound => exact within_destinationExistsOr hlook
    | failed => exact within_destinationExistsOr hlook
  refine within_bind hpublish (fun r => ?_)
  cases r with
  | published => exact within_pure
  | destinationExists => exact within_deduplicate hlook hremove

end calls

/-! ## whole attempts -/

section runs

variable {host : LandHost} {a : Attempt} {aim : Aim}

theorem kept_true {content : Content} : Kept host a content (fun _ => True) where
  remove _ _ _ := trivial
  rename _ _ _ _ := trivial
  link _ _ _ _ := trivial
  exchange _ _ _ _ _ := trivial

/-- A publication leaves a temporary file that may be resumed, if at all. -/
theorem kept_good (aim : Aim) {content : Content} (hsince : aim.since = none)
    (hfine : Fine aim.content aim.mayResume content) (hreturn : ∀ bytes,
      a.publication = .replaceTruncated (fingerprintOf host bytes) → aim.mayReturn bytes) :
    Kept host a content (View.Good aim) := by
  -- A temporary file that is moved or linked is fine wherever it is.
  have hmoved : ∀ {v v' : View}, View.Good aim v → v'.finalBytes = v.partBytes →
      ∀ bytes, v'.finalBytes = some bytes → aim.mayReturn bytes →
        Fine aim.content aim.mayResume bytes := by
    intro v v' hgood hfinal bytes hbytes _
    rcases hgood.part bytes (hfinal.symm.trans hbytes) with hfine | ⟨s, m, hs, -⟩
    · exact hfine
    · simp [hsince] at hs
  refine ⟨fun _ _ hgood => good_remove hgood, fun w c hhandle hgood => ?_,
    fun w c hhandle hgood => ?_, fun w c hhandle hdisplaced hgood => ?_⟩
  · by_cases hrenamed : (renameNoReplaceAnswer w c a.partPath a.downloadPath).1 = .renamed
    · obtain ⟨hpart, hfinal⟩ := rename_renamed hrenamed
      exact View.Good.gone hpart (hmoved hgood hfinal)
    · rw [rename_same hrenamed]
      exact hgood
  · by_cases hopened : (hardLinkAnswer w c a.partPath a.downloadPath).1 = .opened
    · obtain ⟨hpart, hfinal⟩ := link_opened hopened
      refine ⟨fun bytes hbytes => ?_, fun i bytes h => ?_, hmoved hgood hfinal⟩
      · rcases hgood.part bytes (hpart.symm.trans hbytes) with hfine | ⟨s, m, hs, -⟩
        · exact .inl hfine
        · simp [hsince] at hs
      · rw [link_handle, hhandle] at h
        contradiction
    · rw [link_same hopened]
      exact hgood
  · by_cases hrenamed : (exchangeAnswer w c a.partPath a.downloadPath).1 = .renamed
    · obtain ⟨hpart, hfinal⟩ := exchange_renamed hrenamed
      refine ⟨fun bytes hbytes => ?_, fun i bytes h => ?_, hmoved hgood hfinal⟩
      · have hbefore := hpart.symm.trans hbytes
        rcases hdisplaced bytes hbefore with rfl | happroved
        · exact .inl hfine
        · exact .inl (hgood.final bytes hbefore (hreturn bytes happroved))
      · rw [exchange_handle, hhandle] at h
        contradiction
    · rw [exchange_same hrenamed]
      exact hgood

/-- **An attempt that returns has checked the content, and landed it.** -/
theorem lands_run (aim : Aim) {rely : World → World → Prop} {I : View → Prop}
    (hrely : a.Undisturbed rely) (hserver : a.server = .of aim.content)
    (hresume : Resumable a.downloadPath aim.content aim.mayResume)
    (hI : ∀ v, View.Good aim v → I v) (hkept : Kept host a aim.content I) (fuel : Nat) :
    Lands host a rely aim.since I (View.Good aim) (a.run host fuel)
      (fun downloaded v => downloaded.content = aim.content ∧
        (a.skipRename = true → View.Good aim v ∧ Complete aim v) ∧
        (a.skipRename = false → Published a aim.content v)) := by
  refine lands_bind (lands_conseq ((lands_fill hrely hserver hresume fuel).weaken hI)
    (fun v _ hgood => ⟨hgood, trivial⟩) (fun _ _ _ hR => hR)) (fun downloaded => ?_)
  refine lands_ite (fun hskip => lands_pure hrely (fun v _ hP => ?_)) (fun hskip => ?_)
  · exact ⟨hP.2.1, fun _ => ⟨hP.1, hP.2.2⟩, fun h => by simp [h] at hskip⟩
  · refine lands_pre (fun _ _ hP => hP.2.1) (fun hcontent => ?_)
    refine lands_bind (lands_conseq (lands_publish hrely hkept) (fun _ _ hP => hP.2.2)
      (fun _ _ _ hR => hR)) (fun _ => lands_pure hrely (fun v _ hP => ?_))
    exact ⟨hcontent, fun h => absurd h hskip, fun _ => hP⟩

end runs

end Kei.Download
