import Kei.Download.Names

/-!
# Kei.Download.Listings

The listings of directories, apart from the cache they are read through.

A directory is read once, so its listing does not depend on what was asked
before, and every question to the cache is one to the listings.
-/

namespace Kei.Download

open Str

variable {host : Host} {cache : DirCache}

/-- The listing of a directory, read already or not. -/
def listingOf (host : Host) (cache : DirCache) (dir : List String) : Listing :=
  (cache.dirs dir).getD (host.readDirEntries dir)

/-- The size of a path in the listing of its directory. -/
def listedSize (listing : List String → Listing) (path : Path) : Option Nat :=
  match fileName path, parent path with
  | some filename, some dir => (listing dir).lookup filename
  | _, _ => none

/-- The other name in the listing that differs in blanks before AM or PM. -/
def listedVariant (listing : List String → Listing) (path : Path) : Option Path :=
  match fileName path, parent path with
  | some filename, some dir =>
      if normalizeAmpm filename = filename then none
      else ((listing dir).find? (fun entry =>
        entry.1 ≠ filename && normalizeAmpm entry.1 = normalizeAmpm filename)).map
          (fun entry => joinDir dir entry.1)
  | _, _ => none

@[simp] theorem ensureDir_fst (dir : List String) :
    (cache.ensureDir host dir).1 = listingOf host cache dir := by
  unfold DirCache.ensureDir listingOf
  cases cache.dirs dir <;> rfl

@[simp] theorem listingOf_ensureDir (dir : List String) :
    listingOf host (cache.ensureDir host dir).2 = listingOf host cache := by
  funext other
  unfold DirCache.ensureDir listingOf
  cases hdir : cache.dirs dir with
  | some listing => rfl
  | none =>
      by_cases hother : other = dir
      · subst hother
        simp [hdir]
      · simp [Function.update_of_ne hother]

@[simp] theorem fileSize_fst (path : Path) :
    (cache.fileSize host path).1 = listedSize (listingOf host cache) path := by
  unfold DirCache.fileSize listedSize
  cases fileName path <;> cases parent path <;> simp

@[simp] theorem listingOf_fileSize (path : Path) :
    listingOf host (cache.fileSize host path).2 = listingOf host cache := by
  unfold DirCache.fileSize
  cases fileName path <;> cases parent path <;> simp

@[simp] theorem findAmpmVariant_fst (path : Path) :
    (cache.findAmpmVariant host path).1 = listedVariant (listingOf host cache) path := by
  unfold DirCache.findAmpmVariant listedVariant
  cases fileName path with
  | none => rfl
  | some filename =>
      cases parent path with
      | none => rfl
      | some dir =>
          dsimp only
          split
          · rfl
          · simp [joinDir]

@[simp] theorem listingOf_findAmpmVariant (path : Path) :
    listingOf host (cache.findAmpmVariant host path).2 = listingOf host cache := by
  unfold DirCache.findAmpmVariant
  cases fileName path with
  | none => rfl
  | some filename =>
      cases parent path with
      | none => rfl
      | some dir =>
          dsimp only
          split
          · rfl
          · simp

end Kei.Download
