import Kei.Download.CleanNames
import Mathlib.Logic.Function.Basic

/-!
# Kei.FsUtil

`atomic_install`: a file replaces another as a whole.

1. The file is renamed. When that fails, as it does from device to device, it is
   copied to a sibling of the target, and the sibling is renamed.
2. A copy or a last rename that fails removes the source, and a last rename that
   fails removes the sibling.
3. A copy that fails, and an `fsync` of the sibling that fails, leave the sibling.

The ways to fail come from outside, one for each step: `Failures`. When the
target, the source and the sibling are as they should be: `installed_iff`.
-/

namespace Kei.FsUtil

open Str Download

/-- Where a file is. -/
structure Location where
  dir : List String
  name : String
  deriving DecidableEq

/-- The file that a path names, if it names one. -/
def locate (path : Path) : Option Location :=
  (fileName path).map (fun name => ⟨(components path).dropLast, name⟩)

/-- `Path::file_stem` and `Path::extension`. -/
def stemAndExtension (name : String) : String × Option String :=
  match rsplitOnce '.' name with
  | some (stem, ext) => if stem = "" then (name, none) else (stem, some ext)
  | none => (name, none)

/-- `Path::with_extension`. -/
def Location.withExtension (l : Location) (ext : String) : Location :=
  { l with name := (stemAndExtension l.name).1 ++ "." ++ ext }

/-- The sibling that a copy goes to. -/
def dstSibling (pid : Nat) (dst : Location) : Location :=
  dst.withExtension
    (((stemAndExtension dst.name).2.getD "tmp") ++ ".kei-xdev-tmp-" ++ toString pid)

theorem dstSibling_ne (pid : Nat) (dst : Location) : dstSibling pid dst ≠ dst := by
  intro h
  have hname := congrArg (fun l => l.name.toList.length) h
  simp only [dstSibling, Location.withExtension, stemAndExtension] at hname
  split at hname
  · next stem ext hsplit =>
      obtain ⟨hparts, -⟩ := toList_of_rsplitOnce hsplit
      rw [hparts] at hname
      split at hname <;> simp [hparts] at hname
  · simp at hname

/-! ## steps -/

abbrev Files := Location → Option (List UInt8)

/-- What goes wrong at each step. -/
structure Failures where
  /-- `fsync` of the source, for another reason than that it is not there. -/
  fsyncSrc : Bool
  rename : Bool
  /-- The copy, with the bytes that it leaves when it made its target. -/
  copy : Option (Option Nat)
  fsyncSibling : Bool
  finalRename : Bool
  fsyncParentDir : Bool

/-- The step whose error is returned. -/
inductive InstallError where
  | fsyncSrc
  | rename
  | fsyncSibling
  | finalRename
  | fsyncParentDir
  deriving DecidableEq

def Files.at (files : Files) (path : Option Location) : Option (List UInt8) := path.bind files

/-- `remove_file`. -/
def Files.remove (files : Files) : Option Location → Files
  | none => files
  | some l => Function.update files l none

/-- `rename`; a path that names no file cannot be renamed, nor a file to it. -/
def Files.rename (files : Files) (fails : Bool) : Option Location → Option Location → Option Files
  | some source, some target =>
      if fails then
        none
      else
        (files source).map fun bytes =>
          if source = target then files
          else Function.update (Function.update files target (some bytes)) source none
  | _, _ => none

/-- `copy`, which truncates a file that is copied to itself. -/
def Files.copy (files : Files) (fails : Option (Option Nat)) (source target : Option Location) :
    Bool × Files :=
  match files.at source, target with
  | some bytes, some l =>
      let bytes := if source = target then [] else bytes
      match fails with
      | none => (true, Function.update files l (some bytes))
      | some none => (false, files)
      | some (some n) => (false, Function.update files l (some (bytes.take n)))
  | _, _ => (false, files)

def syncParentDir (fails : Bool) (files : Files) : Except InstallError Unit × Files :=
  (if fails then .error .fsyncParentDir else .ok (), files)

/-- What is done when the file cannot be renamed. -/
def copyAcross (f : Failures) (src dst sibling : Option Location) (files : Files) :
    Except InstallError Unit × Files :=
  match files.copy f.copy src sibling with
  | (false, files) => (.error .rename, files.remove src)
  | (true, files) =>
      if f.fsyncSibling then
        (.error .fsyncSibling, files)
      else
        match files.rename f.finalRename sibling dst with
        | none => (.error .finalRename, (files.remove sibling).remove src)
        | some files => syncParentDir f.fsyncParentDir (files.remove src)

/-- `atomic_install`, from the locations of its paths and of the sibling. -/
def install (f : Failures) (src dst sibling : Option Location) (files : Files) :
    Except InstallError Unit × Files :=
  if f.fsyncSrc then
    (.error .fsyncSrc, files)
  else
    match files.rename f.rename src dst with
    | some files => syncParentDir f.fsyncParentDir files
    | none => copyAcross f src dst sibling files

def atomicInstall (pid : Nat) (f : Failures) (src dst : Path) (files : Files) :
    Except InstallError Unit × Files :=
  install f (locate src) (locate dst) ((locate dst).map (dstSibling pid)) files

/-! ## what it leaves -/

/-- The target is old or new as a whole, the new content is somewhere unless a copy or the last
rename failed, and there is no sibling that was not there. -/
@[mk_iff] structure Installed (src dst sibling : Option Location) (files : Files)
    (result : Except InstallError Unit × Files) : Prop where
  whole : result.2.at dst = files.at dst ∨
    (files.at src).isSome = true ∧ result.2.at dst = files.at src
  kept : result.1 ≠ .error .rename → result.1 ≠ .error .finalRename →
    result.2.at src = files.at src ∨ result.2.at dst = files.at src
  cleaned : result.2.at sibling = none ∨ result.2.at sibling = files.at sibling

/-- The copy leaves the path of the sibling as it was. -/
def Unseen (f : Failures) (src sibling : Option Location) (files : Files) : Prop :=
  (files.copy f.copy src sibling).2.at sibling = files.at sibling

/-- The failures after which a file that cannot be renamed is installed. -/
def HarmlessCopy (f : Failures) (src dst sibling : Option Location) (files : Files) : Prop :=
  if (files.copy f.copy src sibling).1 then
    if f.fsyncSibling then Unseen f src sibling files
    else src ≠ dst ∧ (f.finalRename = true ∨ src ≠ sibling ∨ Unseen f src sibling files)
  else
    src ≠ dst ∧ (src = sibling ∨ Unseen f src sibling files)

/-- The failures after which `Installed` holds. -/
def Harmless (f : Failures) (src dst sibling : Option Location) (files : Files) : Prop :=
  f.fsyncSrc = true ∨ (files.rename f.rename src dst).isSome = true ∨ files.at src = none ∨
    HarmlessCopy f src dst sibling files

variable {f : Failures} {files files' : Files} {s t b : Location} {bytes : List UInt8}

theorem rename_eq_some {fails : Bool} {source target : Option Location}
    (h : files.rename fails source target = some files') :
    ∃ s t bytes, source = some s ∧ target = some t ∧ files s = some bytes ∧
      files' = if s = t then files
        else Function.update (Function.update files t (some bytes)) s none := by
  cases source with
  | none => cases h
  | some s =>
      cases target with
      | none => cases h
      | some t =>
          simp only [Files.rename] at h
          split at h
          · cases h
          · obtain ⟨bytes, hbytes, rfl⟩ := Option.map_eq_some_iff.mp h
            exact ⟨s, t, bytes, rfl, rfl, hbytes, rfl⟩

theorem installed_renamed (hne : b ≠ t) (hbytes : files s = some bytes)
    (result : Except InstallError Unit) :
    Installed (some s) (some t) (some b) files (result, if s = t then files
      else Function.update (Function.update files t (some bytes)) s none) := by
  by_cases hst : s = t
  · subst hst
    rw [if_pos rfl]
    exact ⟨.inl rfl, fun _ _ => .inl rfl, .inr rfl⟩
  · rw [if_neg hst]
    refine ⟨.inr ⟨by simp [Files.at, hbytes], ?_⟩, fun _ _ => .inr ?_, ?_⟩ <;>
      simp only [Files.at, Option.bind_some] <;> grind

theorem installed_copyFailed (hne : b ≠ t) (hbytes : files s = some bytes)
    (hcopy : files.copy f.copy (some s) (some b) = (false, files')) :
    Installed (some s) (some t) (some b) files (.error .rename, files'.remove (some s)) ↔
      s ≠ t ∧ (s = b ∨ Unseen f (some s) (some b) files) := by
  rw [Unseen, hcopy, installed_iff]
  simp only [Files.copy, Files.at, Option.bind_some, hbytes] at hcopy
  rcases hfails : f.copy with _ | _ | n <;> rw [hfails] at hcopy
  · cases hcopy
  · obtain rfl : files = files' := by simpa using hcopy
    simp [Files.remove, Files.at, Function.update_apply]
    grind
  · simp at hcopy
    subst hcopy
    simp [Files.remove, Files.at, Function.update_apply]
    grind

theorem copy_eq_true (hbytes : files s = some bytes)
    (hcopy : files.copy f.copy (some s) (some b) = (true, files')) :
    files' = Function.update files b (some (if s = b then [] else bytes)) := by
  simp only [Files.copy, Files.at, Option.bind_some, hbytes, Option.some.injEq] at hcopy
  rcases hfails : f.copy with _ | _ | n <;> rw [hfails] at hcopy <;> grind

theorem installed_unsynced (hne : b ≠ t) (hbytes : files s = some bytes)
    (hcopy : files.copy f.copy (some s) (some b) = (true, files')) :
    Installed (some s) (some t) (some b) files (.error .fsyncSibling, files') ↔
      Unseen f (some s) (some b) files := by
  obtain rfl := copy_eq_true hbytes hcopy
  rw [Unseen, hcopy, installed_iff]
  simp [Files.at, Function.update_apply]
  grind

theorem installed_notRenamed (hne : b ≠ t) (hbytes : files s = some bytes)
    (hcopy : files.copy f.copy (some s) (some b) = (true, files')) :
    Installed (some s) (some t) (some b) files
      (.error .finalRename, (files'.remove (some b)).remove (some s)) ↔ s ≠ t := by
  obtain rfl := copy_eq_true hbytes hcopy
  rw [installed_iff]
  simp [Files.at, Files.remove, Function.update_apply]
  grind

theorem installed_copied (hne : b ≠ t) (hbytes : files s = some bytes)
    (hcopy : files.copy f.copy (some s) (some b) = (true, files'))
    {result : Except InstallError Unit} (hresult : result ≠ .error .rename)
    (hfinal : result ≠ .error .finalRename) {installed : Files}
    (hrename : files'.rename false (some b) (some t) = some installed) :
    Installed (some s) (some t) (some b) files (result, installed.remove (some s)) ↔
      s ≠ t ∧ (s ≠ b ∨ Unseen f (some s) (some b) files) := by
  obtain rfl := copy_eq_true hbytes hcopy
  rw [Unseen, hcopy, installed_iff]
  simp [Files.rename, hne] at hrename
  subst hrename
  simp [Files.at, Files.remove, Function.update_apply, hresult, hfinal]
  grind

theorem installed_missing {sibling dst : Option Location} {src : Option Location}
    (hmissing : files.at src = none) (hcopy : files.copy f.copy src sibling = (false, files')) :
    Installed src dst sibling files (.error .rename, files'.remove src) := by
  obtain rfl : files = files' := by simpa [Files.copy, hmissing] using hcopy
  have hsame : files.remove src = files := by
    cases src with
    | none => rfl
    | some s => exact Function.update_eq_self_iff.mpr hmissing.symm
  rw [hsame]
  exact ⟨.inl rfl, fun h _ => absurd rfl h, .inr rfl⟩

theorem installed_copyAcross {next : Location → Location} (hnext : ∀ l, next l ≠ l)
    (hbytes : files s = some bytes) (dst : Option Location) :
    Installed (some s) dst (dst.map next) files (copyAcross f (some s) dst (dst.map next) files) ↔
      HarmlessCopy f (some s) dst (dst.map next) files := by
  unfold copyAcross HarmlessCopy
  cases dst with
  | none =>
      have hcopy : files.copy f.copy (some s) none = (false, files) := by
        cases h : files.at (some s) <;> simp [Files.copy]
      simp [hcopy, installed_iff, Unseen, Files.at]
  | some t =>
      rw [Option.map_some]
      rcases hcopy : files.copy f.copy (some s) (some (next t)) with ⟨_ | _, files'⟩
      · simpa using installed_copyFailed (hnext t) hbytes hcopy
      · simp only [if_true]
        split
        · exact installed_unsynced (hnext t) hbytes hcopy
        · cases hrename : files'.rename f.finalRename (some (next t)) (some t) with
          | none =>
              have hfails : f.finalRename = true := by
                rw [copy_eq_true hbytes hcopy] at hrename
                by_contra hworks
                simp [Files.rename, hworks] at hrename
              simpa [hfails] using installed_notRenamed (hnext t) hbytes hcopy
          | some installed =>
              have hworks : f.finalRename = false := by
                by_contra hfails
                simp [Files.rename, hfails] at hrename
              rw [hworks] at hrename
              simp only [hworks, Bool.false_eq_true, false_or, ne_eq, Option.some.injEq]
              exact installed_copied (hnext t) hbytes hcopy (by split <;> simp)
                (by split <;> simp) hrename

/-- **When a file is installed as a whole**: a failure is harmful when it leaves the sibling, and
the paths are when the target or the sibling is the source itself. -/
theorem atomicInstall_iff (pid : Nat) (f : Failures) (src dst : Path) (files : Files) :
    Installed (locate src) (locate dst) ((locate dst).map (dstSibling pid)) files
        (atomicInstall pid f src dst files) ↔
      Harmless f (locate src) (locate dst) ((locate dst).map (dstSibling pid)) files := by
  unfold atomicInstall
  generalize locate src = src
  generalize locate dst = dst
  unfold install Harmless
  cases hsync : f.fsyncSrc with
  | true => exact iff_of_true ⟨.inl rfl, fun _ _ => .inl rfl, .inr rfl⟩ (.inl rfl)
  | false =>
      simp only [Bool.false_eq_true, if_false, false_or]
      cases hrename : files.rename f.rename src dst with
      | some files' =>
          obtain ⟨s, t, bytes, rfl, rfl, hbytes, rfl⟩ := rename_eq_some hrename
          exact iff_of_true (installed_renamed (dstSibling_ne pid t) hbytes _) (.inl rfl)
      | none =>
          simp only [Option.isSome_none, Bool.false_eq_true, false_or]
          by_cases hmissing : files.at src = none
          · have hcopy : files.copy f.copy src (dst.map (dstSibling pid)) = (false, files) := by
              simp [Files.copy, hmissing]
            rw [copyAcross, hcopy]
            exact iff_of_true (installed_missing hmissing hcopy) (.inl hmissing)
          · rw [or_iff_right hmissing]
            cases src with
            | none => exact absurd rfl hmissing
            | some s =>
                obtain ⟨bytes, hbytes⟩ := Option.ne_none_iff_exists'.mp hmissing
                exact installed_copyAcross (dstSibling_ne pid) hbytes dst

/-- A file of one byte goes to another device, where its copy cannot be synced. -/
def unsynced : Failures := ⟨false, true, none, true, false, false⟩

/-- The sibling of the target is left behind. -/
theorem unsynced_not_installed :
    ¬Installed (locate "/a/f") (locate "/b/f") ((locate "/b/f").map (dstSibling 1))
      (fun l => if l = ⟨["/", "a"], "f"⟩ then some [7] else none)
      (atomicInstall 1 unsynced "/a/f" "/b/f"
        (fun l => if l = ⟨["/", "a"], "f"⟩ then some [7] else none)) := by
  intro h
  have hcleaned := h.cleaned
  revert hcleaned
  decide +kernel

end Kei.FsUtil
