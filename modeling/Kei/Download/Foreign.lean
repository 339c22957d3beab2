import Kei.Download.Publication

/-!
# Kei.Download.Foreign

Publications while another process writes at the final path.

The other process rewrites, replaces or removes the file at the final path at
any step.  `Watched` keeps the files that it left there, and `Loose` says where
they are: at the final path, but for one, which an exchange moved away.
-/

namespace Kei.Download

open Proc Relation

/-! ## another process -/

/-- A world with the files that another process put at the final path and did not take away. -/
structure Watched where
  world : World
  foreign : List Nat

def watch (host : LandHost) (s : Watched) (call : Call) (choice : Choice) :
    Resp call × Watched :=
  let (r, w) := answer host s.world call choice
  (r, ⟨w, s.foreign⟩)

/-- The file at a path is given up by the other process. -/
def Watched.without (s : Watched) (path : Path) : List Nat :=
  s.foreign.filter (fun i => s.world.entries path ≠ some i)

/-- What the other process does at the final path. -/
inductive Meddles (final : Path) : Watched → Watched → Prop where
  | replace {s : Watched} (bytes : Content) :
      Meddles final s ⟨s.world.create final bytes, s.world.next :: s.without final⟩
  | rewrite {s : Watched} {inode : Nat} (bytes : Content)
      (h : s.world.entries final = some inode) :
      Meddles final s
        ⟨s.world.setFile inode ⟨bytes, s.world.now⟩, inode :: s.without final⟩
  | touch {s : Watched} {inode : Nat} (mtime : Int)
      (h : s.world.entries final = some inode) :
      Meddles final s
        ⟨s.world.setFile inode { s.world.files inode with mtime := mtime }, s.foreign⟩
  | remove {s : Watched} :
      Meddles final s ⟨s.world.setEntry final none, s.without final⟩
  | wait {s : Watched} (elapsed : Nat) :
      Meddles final s ⟨s.world.later elapsed, s.foreign⟩

section places

variable {host : LandHost} {part final : Path}

/-- All files of the other process are at the final path. -/
def AtFinal (final : Path) (s : Watched) : Prop :=
  ∀ i ∈ s.foreign, s.world.entries final = some i

/-- The files of the other process are at the final path, but for one at most, with these
    bytes. -/
structure Loose (final : Path) (inode : Nat) (bytes : Content) (s : Watched) : Prop where
  apart : s.world.entries final ≠ some inode
  holds : (s.world.files inode).bytes = bytes
  old : inode < s.world.next
  bounded : ∀ i, s.world.entries final = some i → i < s.world.next
  foreign : ∀ i ∈ s.foreign, s.world.entries final = some i ∨ i = inode

variable {inode : Nat} {bytes : Content}

/-- The other process leaves a file alone that is not at the final path. -/
theorem stable_loose (own : Prop) : Stable (Meddles final)
    (fun s => Loose final inode bytes s ∧ (own → inode ∉ s.foreign)) := by
  rintro s s' hstep ⟨⟨hapart, hholds, hold, hbounded, hforeign⟩, hown⟩
  cases hstep with
  | replace bytes' =>
      have hne : s.world.next ≠ inode := by omega
      refine ⟨⟨?_, ?_, ?_, ?_, ?_⟩, ?_⟩
      · simpa [World.create, World.setEntry, World.setFile] using hne
      · simpa [World.create, World.setEntry, World.setFile, hne.symm] using hholds
      · simp only [World.create]
        omega
      · intro i hi
        have hi' : s.world.next = i := by
          simpa [World.create, World.setEntry, World.setFile] using hi
        simp only [World.create]
        omega
      · intro i hi
        rcases List.mem_cons.mp hi with rfl | hi
        · left
          simp [World.create, World.setEntry]
        · obtain ⟨hi, hgone⟩ : i ∈ s.foreign ∧ s.world.entries final ≠ some i := by
            simpa [Watched.without] using hi
          exact .inr ((hforeign i hi).resolve_left hgone)
      · intro h hi
        rcases List.mem_cons.mp hi with heq | hi
        · exact hne heq.symm
        · exact hown h (List.mem_of_mem_filter hi)
  | @rewrite j bytes' hentry =>
      have hne : j ≠ inode := by
        rintro rfl
        exact hapart hentry
      refine ⟨⟨hapart, ?_, hold, hbounded, ?_⟩, ?_⟩
      · simpa [World.setFile, hne.symm] using hholds
      · intro i hi
        rcases List.mem_cons.mp hi with rfl | hi
        · exact .inl hentry
        · exact hforeign i (List.mem_of_mem_filter hi)
      · intro h hi
        rcases List.mem_cons.mp hi with heq | hi
        · exact hne heq.symm
        · exact hown h (List.mem_of_mem_filter hi)
  | @touch j mtime hentry =>
      have hne : j ≠ inode := by
        rintro rfl
        exact hapart hentry
      exact ⟨⟨hapart, by simpa [World.setFile, hne.symm] using hholds, hold, hbounded, hforeign⟩,
        hown⟩
  | remove =>
      refine ⟨⟨by simp [World.setEntry], hholds, hold,
        fun i hi => by simp [World.setEntry] at hi, ?_⟩, ?_⟩
      · intro i hi
        obtain ⟨hi, hgone⟩ : i ∈ s.foreign ∧ s.world.entries final ≠ some i := by
          simpa [Watched.without] using hi
        exact .inr ((hforeign i hi).resolve_left hgone)
      · exact fun h hi => hown h (List.mem_of_mem_filter hi)
  | wait elapsed => exact ⟨⟨hapart, hholds, hold, hbounded, hforeign⟩, hown⟩

theorem stable_entry (hne : part ≠ final) (entry : Option Nat) :
    Stable (Meddles final) (fun s => s.world.entries part = entry) := by
  intro s s' hstep h
  cases hstep with
  | replace bytes' => simpa [World.create, World.setEntry, World.setFile, hne] using h
  | rewrite bytes' hentry => exact h
  | touch mtime hentry => exact h
  | remove => simpa [World.setEntry, hne] using h
  | wait elapsed => exact h

theorem stable_atFinal : Stable (Meddles final) (AtFinal final) := by
  intro s s' hstep h
  have hgone : ∀ i, i ∉ s.without final := by
    intro i hi
    obtain ⟨hi, hgone⟩ : i ∈ s.foreign ∧ s.world.entries final ≠ some i := by
      simpa [Watched.without] using hi
    exact hgone (h i hi)
  cases hstep with
  | replace bytes' =>
      intro i hi
      rcases List.mem_cons.mp hi with rfl | hi
      · simp [World.create, World.setEntry]
      · exact absurd hi (hgone i)
  | rewrite bytes' hentry =>
      intro i hi
      rcases List.mem_cons.mp hi with rfl | hi
      · exact hentry
      · exact absurd hi (hgone i)
  | touch mtime hentry => exact h
  | remove => exact fun i hi => absurd hi (hgone i)
  | wait elapsed => exact h

end places

/-! ## a publication among its steps -/

section publication

variable {host : LandHost} {part final : Path}

/-- A file at the temporary path, and the files of the other process at the final path but for
    that one at most; never that one if it is kei's. -/
structure Split (part final : Path) (inode : Nat) (bytes : Content) (own : Prop) (s : Watched) :
    Prop where
  entry : s.world.entries part = some inode
  loose : Loose final inode bytes s
  own : own → inode ∉ s.foreign

/-- `SafeTo` next to another process. -/
abbrev Amid (host : LandHost) (final : Path) (P : Watched → Prop) (program : Publishing α)
    (R : α → Watched → Prop) (E : PublishError → Watched → Prop) : Prop :=
  SafeTo (watch host) (Meddles final) (fun _ => True) P program R E

theorem stable_split (hne : part ≠ final) {inode : Nat} {bytes : Content} {own : Prop} :
    Stable (Meddles final) (Split part final inode bytes own) := by
  intro s s' hstep h
  have hentry := stable_entry hne (some inode) s s' hstep h.entry
  obtain ⟨hloose, hown⟩ := stable_loose own s s' hstep ⟨h.loose, h.own⟩
  exact ⟨hentry, hloose, hown⟩

/-- Some file is at the temporary path. -/
def SomeSplit (part final : Path) (good : Content → Prop) (s : Watched) : Prop :=
  ∃ inode bytes, Split part final inode bytes False s ∧ good bytes

theorem stable_someSplit (hne : part ≠ final) {good : Content → Prop} :
    Stable (Meddles final) (SomeSplit part final good) :=
  Stable.exists fun _ => Stable.exists fun _ => (stable_split hne).and stable_const

theorem retained_context {paths : List Path} {contexts error : PublishError} :
    (classifyConditionalPublishError (.mustRetainPaths paths :: contexts ++ error)).retainedPaths =
      paths := rfl

/-- An error after which what is at the temporary path is kept, or kei's own, or a copy of it. -/
def Excused (host : LandHost) (part final : Path) (replacement : ExistingFileFingerprint)
    (error : PublishError) (s : Watched) : Prop :=
  SomeSplit part final (fun bytes =>
    part ∈ (classifyConditionalPublishError error).retainedPaths ∨
      fingerprintOf host bytes = replacement) s ∨
    ∃ inode bytes, Split part final inode bytes True s

theorem stable_excused (hne : part ≠ final) {replacement : ExistingFileFingerprint}
    {error : PublishError} : Stable (Meddles final) (Excused host part final replacement error) :=
  (stable_someSplit hne).or (Stable.exists fun _ => Stable.exists fun _ => stable_split hne)

section stages

variable (hne : part ≠ final) {inode : Nat} {bytes : Content} {own : Prop}
  {E : PublishError → Watched → Prop}
include hne

theorem amid_look {call : Call} {R : Resp call → Prop}
    (h : ∀ s c, Split part final inode bytes own s → (watch host s call c).2.foreign = s.foreign ∧
      (∃ elapsed, (watch host s call c).2.world = s.world.later elapsed) ∧
      R (watch host s call c).1) :
    Amid host final (Split part final inode bytes own) (request call)
      (fun r s => Split part final inode bytes own s ∧ R r) E := by
  refine safeTo_lift (stable_split hne) (fun _ _ => trivial)
    (fun r => (stable_split hne).and stable_const) (fun _ _ _ => trivial) (fun s c hs => ?_)
  obtain ⟨hforeign, ⟨elapsed, hworld⟩, hr⟩ := h s c hs
  refine ⟨?_, hr⟩
  have hlater := stable_split hne s _ (.wait elapsed) hs
  have hsame : (watch host s call c).2 = ⟨s.world.later elapsed, s.foreign⟩ := by
    rw [← hworld, ← hforeign]
  rw [hsame]
  exact hlater

theorem amid_readPart :
    Amid host final (Split part final inode bytes own) (request (.readFile part))
      (fun r s => Split part final inode bytes own s ∧ ∀ found, r = some found → found = bytes)
      E := by
  refine amid_look hne (fun s c hs => ⟨rfl, ⟨c.elapsed, rfl⟩, fun found hfound => ?_⟩)
  have hread : (if c.fails then none else (s.world.later c.elapsed).bytesAt part) = some found :=
    hfound
  split at hread
  · contradiction
  · have hbytes : s.world.bytesAt part = some bytes := by
      simp [World.bytesAt, hs.entry, hs.loose.holds]
    exact Option.some.inj (hread.symm.trans hbytes)

theorem amid_readFinal :
    Amid host final (Split part final inode bytes own) (request (.readFile final))
      (fun _ s => Split part final inode bytes own s ∧ True) E :=
  amid_look hne (fun _ c _ => ⟨rfl, ⟨c.elapsed, rfl⟩, trivial⟩)

omit hne in
theorem amid_ensure {condition : Bool} {error : PublishError} {P : Watched → Prop}
    (hP : Stable (Meddles final) P)
    (hE : ∀ s, P s → E error s) :
    Amid host final P (ensure condition error) (fun _ s => condition = true ∧ P s) E :=
  safeTo_ite (fun h => safeTo_pure hP (fun _ _ => trivial) (fun _ hs => ⟨h, hs⟩))
    (fun _ => safeTo_throw hP (fun _ _ => trivial) hE)

theorem amid_fingerprintPart :
    Amid host final (Split part final inode bytes own) (fingerprint host part)
      (fun r s => Split part final inode bytes own s ∧ r = fingerprintOf host bytes)
      (fun _ => Split part final inode bytes own) := by
  refine safeTo_bind (amid_readPart hne) (fun r => ?_)
  have hstable : Stable (Meddles final) (fun s => Split part final inode bytes own s ∧
      ∀ found, r = some found → found = bytes) := (stable_split hne).and stable_const
  cases r with
  | none => exact safeTo_throw hstable (fun _ _ => trivial) (fun _ hs => hs.1)
  | some found =>
      refine safeTo_pure hstable (fun _ _ => trivial) (fun s hs => ⟨hs.1, ?_⟩)
      rw [hs.2 found rfl]

theorem amid_fingerprintFinal :
    Amid host final (Split part final inode bytes own) (fingerprint host final)
      (fun _ => Split part final inode bytes own)
      (fun _ => Split part final inode bytes own) := by
  refine safeTo_bind (amid_readFinal hne) (fun r => ?_)
  have hstable : Stable (Meddles final) (fun s => Split part final inode bytes own s ∧ True) :=
    (stable_split hne).and stable_const
  cases r with
  | none => exact safeTo_throw hstable (fun _ _ => trivial) (fun _ hs => hs.1)
  | some found => exact safeTo_pure hstable (fun _ _ => trivial) (fun _ hs => hs.1)

theorem amid_exchange :
    Amid host final (Split part final inode bytes own) (request (.renameExchange part final))
      (fun r s => (r = RenameResult.renamed → SomeSplit part final (fun _ => True) s) ∧
        (r ≠ RenameResult.renamed → Split part final inode bytes own s)) E := by
  refine safeTo_lift (stable_split hne) (fun _ _ => trivial)
    (fun r => (Stable.imp fun _ => stable_someSplit hne).and (Stable.imp fun _ => stable_split hne))
    (fun _ _ _ => trivial) (fun s c hs => ?_)
  have hsplit : Split part final inode bytes own ⟨s.world.later c.elapsed, s.foreign⟩ :=
    stable_split hne s _ (.wait c.elapsed) hs
  show ((exchangeAnswer (s.world.later c.elapsed) c part final).1 = RenameResult.renamed →
      SomeSplit part final (fun _ => True)
        ⟨(exchangeAnswer (s.world.later c.elapsed) c part final).2, s.foreign⟩) ∧
    ((exchangeAnswer (s.world.later c.elapsed) c part final).1 ≠ RenameResult.renamed →
      Split part final inode bytes own
        ⟨(exchangeAnswer (s.world.later c.elapsed) c part final).2, s.foreign⟩)
  generalize s.world.later c.elapsed = w at hsplit
  have hentry : w.entries part = some inode := hsplit.entry
  obtain ⟨hapart, hholds, hold, hbounded, hforeign⟩ := hsplit.loose
  unfold exchangeAnswer
  split
  · exact ⟨(fun h => nomatch h), fun _ => hsplit⟩
  · split
    · exact ⟨(fun h => nomatch h), fun _ => hsplit⟩
    · split
      · exact ⟨(fun h => nomatch h), fun _ => hsplit⟩
      · next hboth =>
        obtain ⟨displaced, hdisplaced⟩ : ∃ i, w.entries final = some i := by
          cases h : w.entries final with
          | none => simp [h] at hboth
          | some i => exact ⟨i, rfl⟩
        refine ⟨fun _ => ?_, fun h => absurd rfl h⟩
        refine ⟨displaced, (w.files displaced).bytes, ⟨?_, ⟨?_, rfl, hbounded displaced hdisplaced,
          ?_, ?_⟩, nofun⟩, trivial⟩
        · simp [World.setEntry, hne, hdisplaced]
        · have hother : inode ≠ displaced := by
            rintro rfl
            exact hapart hdisplaced
          simpa [World.setEntry, hentry] using hother
        · intro i hi
          have hi' : inode = i := by simpa [World.setEntry, hentry] using hi
          exact hi' ▸ hold
        · intro i hi
          rcases hforeign i hi with hthere | rfl
          · exact .inr (Option.some.inj (hthere.symm.trans hdisplaced))
          · left
            simp [World.setEntry, hentry]

theorem amid_removePart :
    Amid host final (Split part final inode bytes own) (request (.removeFile part))
      (fun _ s => Loose final inode bytes s ∧ (own → inode ∉ s.foreign)) E := by
  refine safeTo_lift (stable_split hne) (fun _ _ => trivial) (fun _ => stable_loose own)
    (fun _ _ _ => trivial) (fun s c hs => ?_)
  have hsplit : Split part final inode bytes own ⟨s.world.later c.elapsed, s.foreign⟩ :=
    stable_split hne s _ (.wait c.elapsed) hs
  show Loose final inode bytes ⟨(removeAnswer (s.world.later c.elapsed) c part).2, s.foreign⟩ ∧
    (own → inode ∉ s.foreign)
  generalize s.world.later c.elapsed = w at hsplit
  refine ⟨?_, hsplit.own⟩
  obtain ⟨hapart, hholds, hold, hbounded, hforeign⟩ := hsplit.loose
  unfold removeAnswer
  split
  · exact hsplit.loose
  · split
    · exact hsplit.loose
    · have hfinal : (w.setEntry part none).entries final = w.entries final := by
        simp [World.setEntry, hne.symm]
      exact ⟨by rwa [hfinal], hholds, hold, by rwa [hfinal], by rwa [hfinal]⟩

variable {expected : ExistingFileFingerprint}

theorem amid_exchangeFailed {R : Path → Watched → Prop} :
    Amid host final (Split part final inode bytes own) (exchangeFailed host final expected) R
      (fun _ => Split part final inode bytes own) := by
  refine safeTo_bind (amid_readFinal hne) (fun r => ?_)
  have hthrow : ∀ error : PublishError,
      Amid host final (fun s => Split part final inode bytes own s ∧ True) (throw error) R
        (fun _ => Split part final inode bytes own) := fun _ =>
    safeTo_throw ((stable_split hne).and stable_const) (fun _ _ => trivial) (fun _ hs => hs.1)
  cases r with
  | none => exact hthrow _
  | some found => exact safeTo_ite (fun _ => hthrow _) (fun _ => hthrow _)

theorem amid_exchangeRepairFiles :
    Amid host final (Split part final inode bytes own)
      (exchangeRepairFiles host part final expected)
      (fun displaced s => displaced = part ∧ SomeSplit part final (fun _ => True) s)
      (fun _ => Split part final inode bytes own) := by
  refine safeTo_bind (amid_exchange hne) (fun r => ?_)
  have hstable : ∀ r, Stable (Meddles final)
      (fun s => (r = RenameResult.renamed → SomeSplit part final (fun _ => True) s) ∧
        (r ≠ RenameResult.renamed → Split part final inode bytes own s)) := fun _ =>
    (Stable.imp fun _ => stable_someSplit hne).and (Stable.imp fun _ => stable_split hne)
  have hfailed : ∀ r, r ≠ RenameResult.renamed → Amid host final
      (fun s => (r = RenameResult.renamed → SomeSplit part final (fun _ => True) s) ∧
        (r ≠ RenameResult.renamed → Split part final inode bytes own s))
      (exchangeFailed host final expected)
      (fun displaced s => displaced = part ∧ SomeSplit part final (fun _ => True) s)
      (fun _ => Split part final inode bytes own) := fun r hr =>
    (amid_exchangeFailed hne).strengthen_pre (fun _ hs => hs.2 hr)
  cases r with
  | renamed =>
      exact safeTo_pure (hstable _) (fun _ _ => trivial) (fun _ hs => ⟨rfl, hs.1 rfl⟩)
  | notFound =>
      exact safeTo_throw (hstable _) (fun _ _ => trivial) (fun _ hs => hs.2 (by simp))
  | alreadyExists | unsupported | failed => exact hfailed _ (by simp)

/-- The displaced file is kept when the new file at the final path is not as it should be. -/
theorem amid_checkInstalled {approved : Option ExistingFileFingerprint}
    {replacement : ExistingFileFingerprint} :
    Amid host final (Split part final inode bytes False) (checkInstalled host final part approved)
      (fun _ => Split part final inode bytes False) (Excused host part final replacement) := by
  cases approved with
  | none => exact safeTo_pure (stable_split hne) (fun _ _ => trivial) (fun _ hs => hs)
  | some approved =>
      refine safeTo_adapt (safeTo_bind (amid_fingerprintFinal hne) fun r =>
        (amid_ensure (stable_split hne) (fun _ hs => hs)).mono (fun _ hs => hs)
          (fun _ _ hs => hs.2) (fun _ _ hs => hs)) (fun error s hs => ?_)
      exact .inl ⟨inode, bytes, hs, .inl (by rw [retained_context]; simp)⟩

theorem amid_restore {replacement : ExistingFileFingerprint} :
    Amid host final (Split part final inode bytes False)
      (restoreRepairTargetIfUnchanged host part final part replacement)
      (fun r => SomeSplit part final (fun bytes =>
        r = true → fingerprintOf host bytes = replacement))
      (fun error => SomeSplit part final (fun _ =>
        part ∈ (classifyConditionalPublishError error).retainedPaths)) := by
  have hkept : Amid host final (fun s => Split part final inode bytes False s ∧ True)
      (pure false) (fun r => SomeSplit part final (fun bytes =>
        r = true → fingerprintOf host bytes = replacement))
      (fun error => SomeSplit part final (fun _ =>
        part ∈ (classifyConditionalPublishError error).retainedPaths)) :=
    safeTo_pure ((stable_split hne).and stable_const) (fun _ _ => trivial)
      (fun s hs => ⟨inode, bytes, hs.1, nofun⟩)
  refine safeTo_bind (amid_readFinal hne) (fun r => ?_)
  cases r with
  | none => exact hkept
  | some found =>
      refine safeTo_ite (fun _ => ?_) (fun _ => hkept)
      have hretained : ∀ error : PublishError,
          part ∈ (classifyConditionalPublishError
            ([.mustRetainPaths (retainedRestorePaths part part), .targetChanged .unverifiable] ++
              error)).retainedPaths := by
        intro error
        show part ∈ retainedRestorePaths part part
        simp [retainedRestorePaths]
      refine safeTo_adapt (E := fun _ => SomeSplit part final (fun _ => True)) ?_
        (fun error s ⟨k, b, hs, _⟩ => ⟨k, b, hs, hretained error⟩)
      refine safeTo_bind ((amid_exchange hne).strengthen_pre (fun _ hs => hs.1)) (fun r => ?_)
      have hthrow : ∀ r, r ≠ RenameResult.renamed → Amid host final
          (fun s => (r = RenameResult.renamed → SomeSplit part final (fun _ => True) s) ∧
            (r ≠ RenameResult.renamed → Split part final inode bytes False s))
          (throw [.io false]) (fun r => SomeSplit part final (fun bytes =>
            r = true → fingerprintOf host bytes = replacement))
          (fun _ => SomeSplit part final (fun _ => True)) := fun r hr =>
        safeTo_throw ((Stable.imp fun _ => stable_someSplit hne).and
          (Stable.imp fun _ => stable_split hne)) (fun _ _ => trivial)
          (fun s hs => ⟨inode, bytes, hs.2 hr, trivial⟩)
      cases r with
      | renamed =>
          refine SafeTo.strengthen_pre (P := SomeSplit part final (fun _ => True)) ?_
            (fun _ hs => hs.1 rfl)
          refine safeTo_exists (fun k => safeTo_exists (fun b => ?_))
          refine safeTo_bind (SafeTo.mono (amid_fingerprintPart hne) (fun _ hs => hs.1)
            (fun _ _ h => h) (fun _ s hs => ⟨k, b, hs, trivial⟩)) (fun fp => ?_)
          refine safeTo_bind (amid_ensure ((stable_split hne).and stable_const)
            (fun s hs => ⟨k, b, hs.1, trivial⟩)) (fun _ => ?_)
          refine safeTo_pure (stable_const.and ((stable_split hne).and stable_const))
            (fun _ _ => trivial) (fun s hs => ⟨k, b, hs.2.1, fun _ => ?_⟩)
          rw [← hs.2.2]
          simpa using hs.1
      | notFound | alreadyExists | unsupported | failed => exact hthrow _ (by simp)

theorem amid_giveBack {replacement : ExistingFileFingerprint} {cause error : PublishError}
    {R : Unit → Watched → Prop} :
    Amid host final (Split part final inode bytes False)
      (giveBack host part final part replacement cause error) R
      (Excused host part final replacement) := by
  refine safeTo_bind (safeTo_adapt (amid_restore hne) (fun error s ⟨k, b, hs, hretained⟩ =>
    .inl ⟨k, b, hs, .inl hretained⟩)) (fun r => ?_)
  cases r with
  | true =>
      exact safeTo_throw (stable_someSplit hne) (fun _ _ => trivial)
        (fun s ⟨k, b, hs, hfp⟩ => .inl ⟨k, b, hs, .inr (hfp rfl)⟩)
  | false =>
      refine safeTo_throw (stable_someSplit hne) (fun _ _ => trivial)
        (fun s ⟨k, b, hs, _⟩ => .inl ⟨k, b, hs, .inl ?_⟩)
      show part ∈ [part]
      simp

theorem amid_checkDisplaced {expected replacement : ExistingFileFingerprint} :
    Amid host final (Split part final inode bytes False)
      (checkDisplaced host part final part expected replacement)
      (fun _ s => Split part final inode bytes False s ∧ fingerprintOf host bytes = expected)
      (Excused host part final replacement) := by
  refine safeTo_bind (amid_readPart hne) (fun r => ?_)
  cases r with
  | none => exact (amid_giveBack hne).strengthen_pre (fun _ hs => hs.1)
  | some found =>
      refine safeTo_ite (fun hfp => ?_) (fun _ =>
        (amid_giveBack hne).strengthen_pre (fun _ hs => hs.1))
      refine safeTo_pure ((stable_split hne).and stable_const) (fun _ _ => trivial)
        (fun s hs => ⟨hs.1, ?_⟩)
      rw [← hs.2 found rfl]
      exact hfp

/-- **What an exchange displaces is what was to be replaced, or is kept.** -/
theorem amid_replaceFileIfUnchanged {approved : Option ExistingFileFingerprint} :
    Amid host final (Split part final inode bytes True)
      (replaceFileIfUnchanged host part final expected approved)
      (fun _ s => ∃ displaced found, Loose final displaced found s ∧
        fingerprintOf host found = expected)
      (Excused host part final (fingerprintOf host bytes)) := by
  have hown : ∀ (error : PublishError) s, Split part final inode bytes True s →
      Excused host part final (fingerprintOf host bytes) error s :=
    fun _ _ hs => .inr ⟨inode, bytes, hs⟩
  refine safeTo_bind (safeTo_adapt (amid_fingerprintFinal hne) (fun e s hs => hown _ s hs))
    (fun current => ?_)
  refine safeTo_bind (amid_ensure (stable_split hne) (fun s hs => hown _ s hs)) (fun _ => ?_)
  refine safeTo_bind ((safeTo_adapt (amid_fingerprintPart hne) (fun e s hs =>
    hown _ s hs)).strengthen_pre (fun _ hs => hs.2)) (fun replacement => ?_)
  refine safeTo_pre (fun _ hs => hs.2) (fun hreplacement => ?_)
  subst hreplacement
  refine safeTo_bind (amid_ensure ((stable_split hne).and stable_const)
    (fun s hs => hown _ s hs.1)) (fun _ => ?_)
  refine safeTo_bind ((amid_exchangeRepairFiles hne).mono (fun _ hs => hs.2.1) (fun _ _ h => h)
    (fun e s hs => hown e s hs)) (fun displaced => ?_)
  refine safeTo_pre (fun _ hs => hs.1) (fun hdisplaced => ?_)
  subst hdisplaced
  refine SafeTo.strengthen_pre (P := SomeSplit displaced final (fun _ => True)) ?_
    (fun _ hs => hs.2)
  refine safeTo_exists (fun moved => safeTo_exists (fun found => ?_))
  refine safeTo_bind ((amid_checkInstalled hne).strengthen_pre (fun _ hs => hs.1)) (fun _ => ?_)
  refine safeTo_bind (amid_checkDisplaced hne) (fun _ => ?_)
  refine safeTo_pre (fun _ hs => hs.2) (fun hfound => ?_)
  refine safeTo_bind ((amid_removePart hne).strengthen_pre (fun _ hs => hs.1)) (fun _ => ?_)
  exact safeTo_pure (stable_loose False) (fun _ _ => trivial)
    (fun s hs => ⟨moved, found, hs.1, hfound⟩)

end stages

/-- A call of a publication that does not replace leaves the files of the other process at the
    final path. -/
theorem keeps_atFinal (hne : part ≠ final) {s : Watched} {call : Call} {c : Choice}
    (hcall : call = .removeFile part ∨ call = .renameNoReplace part final ∨
      call = .hardLink part final ∨ ∃ path, call = .readFile path ∨ call = .tryExists path)
    (h : AtFinal final s) : AtFinal final (watch host s call c).2 := by
  have hempty : ∀ w : World, (w.entries final).isSome = false →
      (∀ i ∈ s.foreign, w.entries final = some i) → ∀ i, i ∉ s.foreign := by
    intro w hnone hforeign i hi
    simp [hforeign i hi] at hnone
  have hlater : ∀ i ∈ s.foreign, (s.world.later c.elapsed).entries final = some i := h
  rcases hcall with rfl | rfl | rfl | ⟨path, rfl | rfl⟩
  · show ∀ i ∈ s.foreign, (removeAnswer (s.world.later c.elapsed) c part).2.entries final = some i
    generalize s.world.later c.elapsed = w at hlater
    unfold removeAnswer
    split
    · exact hlater
    · split
      · exact hlater
      · simpa [World.setEntry, hne.symm] using hlater
  · show ∀ i ∈ s.foreign,
      (renameNoReplaceAnswer (s.world.later c.elapsed) c part final).2.entries final = some i
    generalize s.world.later c.elapsed = w at hlater
    unfold renameNoReplaceAnswer
    split
    · exact hlater
    · split
      · exact hlater
      · split
        · exact hlater
        · split
          · exact hlater
          · next hfree => exact fun i hi => absurd hi (hempty w (by simpa using hfree) hlater i)
  · show ∀ i ∈ s.foreign,
      (hardLinkAnswer (s.world.later c.elapsed) c part final).2.entries final = some i
    generalize s.world.later c.elapsed = w at hlater
    unfold hardLinkAnswer
    split
    · exact hlater
    · split
      · exact hlater
      · next hfree => exact fun i hi => absurd hi (hempty w (by simpa using hfree) hlater i)
  · exact hlater
  · exact hlater

end publication

/-! ## what a publication leaves -/

/-- Where the files of the other process are when a publication has returned: at the final path,
    or replaced as approved after a success, or retained after an error. -/
def Spared (part final : Path) (approved excepted : Content → Prop)
    (r : Except PublishError α) (s : Watched) : Prop :=
  ∀ i ∈ s.foreign, s.world.entries final = some i ∨
    match r with
    | .ok _ => approved (s.world.files i).bytes
    | .error error =>
        (s.world.entries part = some i ∧
          part ∈ (classifyConditionalPublishError error).retainedPaths) ∨
        excepted (s.world.files i).bytes

/-- Whatever the other process does at the final path between the steps, and whatever fails. -/
def SparesForeign (host : LandHost) (part final : Path) (approved excepted : Content → Prop)
    (program : Publishing α) (s : Watched) : Prop :=
  ∀ r s', Config.Runs (watch host) (Meddles final) (Meddles final) (fun _ => False)
    ⟨some program.run, s⟩ ⟨some (.ret r), s'⟩ → Spared part final approved excepted r s'

/-- A publication begins with a temporary file of its own. -/
structure Begins (part final : Path) (content : Content) (s : Watched) : Prop where
  different : part ≠ final
  prepared : s.world.bytesAt part = some content
  apart : ∀ i, s.world.entries part = some i → s.world.entries final ≠ some i
  bounded : ∀ path i, s.world.entries path = some i → i < s.world.next
  foreign : AtFinal final s

section spares

variable {host : LandHost} {part final : Path} {content : Content} {s : Watched}

theorem Begins.split (h : Begins part final content s) :
    ∃ inode, Split part final inode content True s := by
  cases hentry : s.world.entries part with
  | none =>
      have hprepared := h.prepared
      simp [World.bytesAt, hentry] at hprepared
  | some inode =>
      have hbytes : (s.world.files inode).bytes = content := by
        simpa [World.bytesAt, hentry] using h.prepared
      refine ⟨inode, hentry, ⟨h.apart inode hentry, hbytes, h.bounded part inode hentry,
        h.bounded final, fun i hi => .inl (h.foreign i hi)⟩, fun _ hi => ?_⟩
      exact h.apart inode hentry (h.foreign inode hi)

/-- The files of the other process after an error. -/
def Settled (host : LandHost) (part final : Path) (replacement : ExistingFileFingerprint)
    (error : PublishError) (s : Watched) : Prop :=
  ∃ inode bytes, Loose final inode bytes s ∧
    ((s.world.entries part = some inode ∧
        part ∈ (classifyConditionalPublishError error).retainedPaths) ∨
      fingerprintOf host bytes = replacement ∨ inode ∉ s.foreign)

variable {replacement : ExistingFileFingerprint} {error : PublishError}

theorem Excused.settled (h : Excused host part final replacement error s) :
    Settled host part final replacement error s := by
  rcases h with ⟨inode, bytes, hsplit, hkept | hcopy⟩ | ⟨inode, bytes, hsplit⟩
  · exact ⟨inode, bytes, hsplit.loose, .inl ⟨hsplit.entry, hkept⟩⟩
  · exact ⟨inode, bytes, hsplit.loose, .inr (.inl hcopy)⟩
  · exact ⟨inode, bytes, hsplit.loose, .inr (.inr (hsplit.own trivial))⟩

theorem stable_settled (hne : part ≠ final) :
    Stable (Meddles final) (Settled host part final replacement error) := by
  rintro s s' hstep ⟨inode, bytes, hloose, h⟩
  refine ⟨inode, bytes, (stable_loose False s s' hstep ⟨hloose, nofun⟩).1, ?_⟩
  rcases h with ⟨hentry, hkept⟩ | hcopy | hown
  · exact .inl ⟨stable_entry hne (some inode) s s' hstep hentry, hkept⟩
  · exact .inr (.inl hcopy)
  · exact .inr (.inr ((stable_loose True s s' hstep ⟨hloose, fun _ => hown⟩).2 trivial))

theorem Settled.spared {α : Type} {approved : Content → Prop}
    (h : Settled host part final replacement error s) :
    Spared part final approved (fun bytes => fingerprintOf host bytes = replacement)
      (.error error : Except PublishError α) s := by
  obtain ⟨inode, bytes, hloose, h⟩ := h
  intro i hi
  rcases hloose.foreign i hi with hthere | rfl
  · exact .inl hthere
  · right
    rcases h with hkept | hcopy | hown
    · exact .inl hkept
    · exact .inr (by rwa [hloose.holds])
    · exact absurd hi hown

theorem spared_of_loose {α : Type} {r : α} {expected : ExistingFileFingerprint}
    {excepted : Content → Prop} (h : ∃ displaced found, Loose final displaced found s ∧
      fingerprintOf host found = expected) :
    Spared part final (fun bytes => fingerprintOf host bytes = expected) excepted
      (.ok r : Except PublishError α) s := by
  obtain ⟨displaced, found, hloose, hfound⟩ := h
  intro i hi
  rcases hloose.foreign i hi with hthere | rfl
  · exact .inl hthere
  · right
    show fingerprintOf host _ = expected
    rw [hloose.holds, hfound]

theorem amid_dropGuard (hne : part ≠ final) {E : PublishError → Watched → Prop} :
    Amid host final (Excused host part final replacement error)
      (dropGuard part (classifyConditionalPublishError error).retainedPaths)
      (fun _ => Settled host part final replacement error) E := by
  refine safeTo_ite (fun _ => ?_) (fun hdropped => ?_)
  · exact safeTo_pure (stable_excused hne) (fun _ _ => trivial) (fun _ hs => hs.settled)
  · have hremove : ∀ inode bytes own, (own ∨ fingerprintOf host bytes = replacement) →
        Amid host final (Split part final inode bytes own) (do
          let _ ← request (.removeFile part) : Publishing Unit)
          (fun _ => Settled host part final replacement error) E := by
      intro inode bytes own hfine
      refine safeTo_bind (amid_removePart hne) (fun _ => safeTo_pure (stable_loose own)
        (fun _ _ => trivial) (fun s hs => ⟨inode, bytes, hs.1, .inr ?_⟩))
      rcases hfine with hown | hcopy
      · exact .inr (hs.2 hown)
      · exact .inl hcopy
    rintro s (⟨inode, bytes, hsplit, hkept | hcopy⟩ | ⟨inode, bytes, hsplit⟩)
    · exact absurd hkept hdropped
    · exact hremove inode bytes False (.inr hcopy) s hsplit
    · exact hremove inode bytes True (.inl trivial) s hsplit

theorem amid_publishPrepared (hne : part ≠ final) {inode : Nat} {bytes : Content}
    {expected approved : ExistingFileFingerprint} :
    Amid host final (Split part final inode bytes True)
      (publishPrepared host part final expected approved)
      (fun _ s => ∃ displaced found, Loose final displaced found s ∧
        fingerprintOf host found = expected)
      (Settled host part final (fingerprintOf host bytes)) := by
  refine safeTo_bind ((safeTo_try (amid_replaceFileIfUnchanged hne)).mono (fun _ hs => hs)
    (fun _ _ h => h) (fun _ _ h => h.elim)) (fun r => ?_)
  cases r with
  | ok _ =>
      have hstable : Stable (Meddles final) (fun s => ∃ displaced found,
          Loose final displaced found s ∧ fingerprintOf host found = expected) := by
        rintro s s' hstep ⟨displaced, found, hloose, hfound⟩
        exact ⟨displaced, found, (stable_loose False s s' hstep ⟨hloose, nofun⟩).1, hfound⟩
      exact safeTo_pure hstable (fun _ _ => trivial) (fun _ hs => hs)
  | error error =>
      exact safeTo_bind (amid_dropGuard hne) (fun _ =>
        safeTo_throw (stable_settled hne) (fun _ _ => trivial) (fun _ hs => hs))

theorem sparesForeign_of_amid {α : Type} {program : Publishing α} {P : Watched → Prop}
    {R : α → Watched → Prop} {E : PublishError → Watched → Prop}
    {approved excepted : Content → Prop} (h : Amid host final P program R E) (hs : P s)
    (hR : ∀ a s, R a s → Spared part final approved excepted (.ok a) s)
    (hE : ∀ e s, E e s → Spared part final approved excepted (.error e : Except _ α) s) :
    SparesForeign host part final approved excepted program s := by
  intro r s' hrun
  have hend := (runs_safe (h s hs) hrun _ rfl s' .refl).2
  cases r with
  | ok a => exact hR a s' hend
  | error e => exact hE e s' hend

/-- **A publication destroys nothing that another process put at the final path**, but for what
    it was approved to replace, and copies of its own replacement. -/
theorem Begins.spares (h : Begins part final content s) :
    SparesForeign host part final (fun _ => False) (fun _ => False)
      (publishPartToFinal host part final .noReplace) s ∧
    (∀ expected, SparesForeign host part final
      (fun bytes => fingerprintOf host bytes = expected)
      (fun bytes => fingerprintOf host bytes = fingerprintOf host content)
      (publishPartToFinal host part final (.replaceTruncated expected)) s) ∧
    ∀ expected approved, SparesForeign host part final
      (fun bytes => fingerprintOf host bytes = expected)
      (fun bytes => fingerprintOf host bytes = fingerprintOf host content)
      (publishPrepared host part final expected approved) s := by
  obtain ⟨inode, hsplit⟩ := h.split
  refine ⟨?_, fun expected => ?_, fun expected approved => ?_⟩
  · intro r s' hrun
    have honly : Within (fun call => call = .removeFile part ∨
        call = .renameNoReplace part final ∨ call = .hardLink part final ∨
          ∃ path, call = .readFile path ∨ call = .tryExists path)
        (publishPartToFinal host part final .noReplace) :=
      within_noReplace (fun path => ⟨.inr (.inr (.inr ⟨path, .inl rfl⟩)),
        .inr (.inr (.inr ⟨path, .inr rfl⟩))⟩) (.inl rfl) (.inr (.inl rfl)) (.inr (.inr (.inl rfl)))
    have hsafe : Safe (watch host) (Meddles final) (fun _ => True)
        (fun _ s => True ∧ AtFinal final s)
        (publishPartToFinal host part final .noReplace).run s :=
      safe_of_only honly stable_atFinal (fun _ _ => trivial)
        (fun s call c hcall hs => keeps_atFinal h.different hcall hs) h.foreign
    have hend := (runs_safe hsafe hrun _ rfl s' .refl).2.2
    exact fun i hi => .inl (hend i hi)
  · exact sparesForeign_of_amid (amid_replaceFileIfUnchanged h.different) hsplit
      (fun _ _ hs => spared_of_loose hs) (fun _ _ hs => hs.settled.spared)
  · exact sparesForeign_of_amid (amid_publishPrepared h.different) hsplit
      (fun _ _ hs => spared_of_loose hs) (fun _ _ hs => hs.spared)

end spares

/-! ## a copy of the replacement -/

/-- The file to be replaced, and what is to replace it. -/
def preparedStart : Watched :=
  ⟨(emptyWorld.create "d/a.jpg" [1]).create "d/a.tmp" [2], []⟩

def preparedProgram : Publishing ExistingFileFingerprint :=
  publishPrepared plainLandHost "d/a.tmp" "d/a.jpg" (fingerprintOf plainLandHost [1])
    (fingerprintOf plainLandHost [2])

theorem preparedStart_begins : Begins "d/a.tmp" "d/a.jpg" [2] preparedStart where
  different := by decide
  prepared := by decide
  apart i h := by
    cases h
    decide
  bounded path i h := by
    by_cases hpart : path = "d/a.tmp"
    · subst hpart
      cases h
      decide
    · by_cases hfinal : path = "d/a.jpg"
      · subst hfinal
        cases h
        decide
      · simp [preparedStart, World.create, World.setEntry, World.setFile, hpart, hfinal,
          emptyWorld] at h
  foreign i hi := nomatch hi

/-- Whatever another process does. -/
theorem preparedStart_spares :
    SparesForeign plainLandHost "d/a.tmp" "d/a.jpg"
      (fun bytes => fingerprintOf plainLandHost bytes = fingerprintOf plainLandHost [1])
      (fun bytes => fingerprintOf plainLandHost bytes = fingerprintOf plainLandHost [2])
      preparedProgram preparedStart :=
  (Begins.spares preparedStart_begins).2.2 _ _

/-- **A copy of the replacement is taken for the replacement, and deleted.** -/
theorem copy_deleted :
    ¬SparesForeign plainLandHost "d/a.tmp" "d/a.jpg"
      (fun bytes => fingerprintOf plainLandHost bytes = fingerprintOf plainLandHost [1])
      (fun _ => False) preparedProgram preparedStart := by
  intro h
  have hspared := h (.error [.message "Could not install metadata update",
    .targetChanged .duringPublication]) _
    ((runs_calls (List.replicate 2 (works 0)) _ _).trans
      (.head (.rely (.replace [3])) ((runs_calls (List.replicate 3 (works 0)) _ _).trans
        (.head (.rely (.replace [2])) (runs_calls (List.replicate 4 (works 0)) _ _)))))
  rcases hspared 3 (by decide) with hfinal | ⟨hpart, -⟩ | hnever
  · revert hfinal
    decide
  · revert hpart
    decide
  · exact hnever

end Kei.Download
