import Kei.Import

/-!
# Kei.Import.Family

What the search for a file finds: the first file with the right size among the
files that could be the one of a version.

The listings of directories are read once, so what the search finds does not
depend on what was searched before.  `resolveMatchPath_eq` says it for the
disk and the listings alone.
-/

namespace Kei.Import

open Str Download

variable {host : Host} {tree : Tree} {cache : DirCache}

/-! ## the files of a family -/

/-- A file with the size that is compared. -/
structure Sighting where
  path : Path
  size : Nat
  metadata : Metadata

def exactSighting (tree : Tree) (path : Path) : Option Sighting :=
  (tree.metadata (components path)).map (fun metadata => ⟨path, metadata.len, metadata⟩)

def ampmSighting (tree : Tree) (listing : List String → Listing) (path : Path) :
    Option Sighting := do
  let variant ← listedVariant listing path
  let size ← listedSize listing variant
  let metadata ← tree.metadata (components variant)
  return ⟨variant, size, metadata⟩

/-- The files for one name. -/
def sightings (tree : Tree) (listing : List String → Listing) (path : Path) : List Sighting :=
  (exactSighting tree path).toList ++ (ampmSighting tree listing path).toList

/-- The files with an ordinal among some entries, up to one that cannot be read. -/
def siblingsAmong (dir : List String) (base assetId : String) : List DirEntry → List Sighting
  | [] => []
  | entry :: rest =>
      match entry.fileName.filter (filenameMatchesIdentityCollision base assetId) with
      | none => siblingsAmong dir base assetId rest
      | some name =>
          match entry.metadata with
          | none => []
          | some metadata =>
              ⟨joinDir dir name, metadata.len, metadata⟩ :: siblingsAmong dir base assetId rest

def siblingSightings (tree : Tree) (assetId : String) (path : Path) : List Sighting :=
  match parent path, fileName path with
  | some dir, some base => siblingsAmong dir base assetId ((tree.readDir dir).getD [])
  | _, _ => []

/-- All files that could be the one of a version, in the order of the search. -/
def family (tree : Tree) (listing : List String → Listing) (config : DownloadConfig)
    (candidate : ImportPathCandidate) (allExpected : List DerivedPath) (assetId : String) :
    List Sighting :=
  let candidates := sortedCandidates config candidate allExpected assetId
  candidates.flatMap (sightings tree listing) ++
    if config.fileMatchPolicy = .nameSizeDedupWithSuffix then
      candidates.flatMap (siblingSightings tree assetId)
    else []

/-- The first file with a size. -/
def firstOfSize (size : Nat) (files : List Sighting) : Option (Path × Metadata) :=
  (files.find? (fun file => file.size = size)).map (fun file => (file.path, file.metadata))

theorem firstOfSize_append (size : Nat) (files files' : List Sighting) :
    firstOfSize size (files ++ files') = (firstOfSize size files).or (firstOfSize size files') := by
  unfold firstOfSize
  rw [List.find?_append]
  cases files.find? (fun file => file.size = size) <;> simp

theorem firstOfSize_flatMap (size : Nat) (paths : List Path) (files : Path → List Sighting) :
    firstOfSize size (paths.flatMap files) =
      paths.findSome? (fun path => firstOfSize size (files path)) := by
  induction paths with
  | nil => rfl
  | cons path rest ih =>
      rw [List.flatMap_cons, firstOfSize_append, ih, List.findSome?_cons]
      cases firstOfSize size (files path) <;> rfl

/-! ## the search -/

theorem matchAmpmVariant_spec (path : Path) (size : Nat) :
    (matchAmpmVariant host tree path size cache).1 =
        firstOfSize size (ampmSighting tree (listingOf host cache) path).toList ∧
      listingOf host (matchAmpmVariant host tree path size cache).2 = listingOf host cache := by
  unfold matchAmpmVariant ampmSighting
  cases hname : fileName path with
  | none => simp [listedVariant, hname, firstOfSize]
  | some filename =>
      cases hdir : parent path with
      | none => split <;> simp [listedVariant, hname, hdir, firstOfSize]
      | some dir =>
          by_cases hblank : normalizeAmpm filename = filename
          · simp [listedVariant, hname, hdir, hblank, firstOfSize]
          · simp only [Option.any_some, ne_eq, hblank, not_false_eq_true, decide_true, if_true]
            have hvariant := @findAmpmVariant_fst host (cache.ensureDir host dir).2 path
            have hsame := @listingOf_findAmpmVariant host (cache.ensureDir host dir).2 path
            rw [listingOf_ensureDir] at hvariant hsame
            cases hfind : (cache.ensureDir host dir).2.findAmpmVariant host path with
            | mk found cache' =>
                rw [hfind] at hvariant hsame
                rw [← hvariant]
                cases found with
                | none => simp [firstOfSize, hsame]
                | some variant =>
                    have hsize := @fileSize_fst host cache' variant
                    have hlisting := @listingOf_fileSize host cache' variant
                    rw [hsame] at hsize hlisting
                    simp only [hsize]
                    refine ⟨?_, by split <;> exact hlisting⟩
                    cases hlist : listedSize (listingOf host cache) variant with
                    | none => simp [firstOfSize, hlist]
                    | some listed =>
                        by_cases hlisted : listed = size <;>
                          cases hmeta : tree.metadata (components variant) <;>
                            simp [firstOfSize, hlist, hlisted, hmeta]

/-- The search for one name finds the first of its files with the size. -/
theorem matchExactOrAmpmVariant_spec (path : Path) (size : Nat) :
    (matchExactOrAmpmVariant host tree path size cache).1 =
        firstOfSize size (sightings tree (listingOf host cache) path) ∧
      listingOf host (matchExactOrAmpmVariant host tree path size cache).2 =
        listingOf host cache := by
  obtain ⟨hvariant, hlisting⟩ := matchAmpmVariant_spec path size
  unfold matchExactOrAmpmVariant sightings
  rw [firstOfSize_append, ← hvariant]
  cases hmeta : tree.metadata (components path) with
  | none => simp [exactSighting, hmeta, firstOfSize, hlisting]
  | some metadata =>
      by_cases hlen : metadata.len = size
      · simp [exactSighting, hmeta, firstOfSize, Option.filter, hlen]
      · simp [exactSighting, hmeta, firstOfSize, Option.filter, hlen, hlisting]

theorem matchCandidates_spec (size : Nat) (paths : List Path) (cache : DirCache) :
    (matchCandidates host tree size paths cache).1 =
        firstOfSize size (paths.flatMap (sightings tree (listingOf host cache))) ∧
      listingOf host (matchCandidates host tree size paths cache).2 = listingOf host cache := by
  induction paths generalizing cache with
  | nil => simp [matchCandidates, firstOfSize]
  | cons path rest ih =>
      obtain ⟨hfound, hlisting⟩ := @matchExactOrAmpmVariant_spec host tree cache path size
      rw [matchCandidates, List.flatMap_cons, firstOfSize_append, ← hfound]
      cases hmatch : matchExactOrAmpmVariant host tree path size cache with
      | mk found cache' =>
          rw [hmatch] at hlisting
          cases found with
          | some found => exact ⟨rfl, hlisting⟩
          | none =>
              obtain ⟨hrest, hsame⟩ := ih cache'
              rw [hlisting] at hrest hsame
              exact ⟨hrest, hsame⟩

theorem identityOrdinalSibling_eq (dir : List String) (base assetId : String) (size : Nat)
    (entries : List DirEntry) : identityOrdinalSibling dir base assetId size entries =
      firstOfSize size (siblingsAmong dir base assetId entries) := by
  induction entries with
  | nil => rfl
  | cons entry rest ih =>
      rw [identityOrdinalSibling, siblingsAmong]
      cases entry.fileName.filter (filenameMatchesIdentityCollision base assetId) with
      | none => exact ih
      | some name =>
          cases entry.metadata with
          | none => rfl
          | some metadata =>
              by_cases hlen : metadata.len = size
              · simp [firstOfSize, hlen]
              · simp only [hlen, if_false, ih]
                simp [firstOfSize, hlen]

theorem findIdentityOrdinalSibling_eq (path : Path) (assetId : String) (size : Nat) :
    findIdentityOrdinalSibling tree path assetId size =
      firstOfSize size (siblingSightings tree assetId path) := by
  unfold findIdentityOrdinalSibling siblingSightings
  cases parent path with
  | none => rfl
  | some dir =>
      cases fileName path with
      | none => rfl
      | some base =>
          cases hread : tree.readDir dir with
          | none => simp [siblingsAmong, firstOfSize, hread]
          | some entries => simp [identityOrdinalSibling_eq, hread]

/-- **The search finds the first file of the family with the size of the version.** -/
theorem resolveMatchPath_spec (config : DownloadConfig) (candidate : ImportPathCandidate)
    (allExpected : List DerivedPath) (assetId : String) :
    (resolveMatchPath host tree config candidate allExpected assetId cache).1 =
        firstOfSize candidate.expectedSize
          (family tree (listingOf host cache) config candidate allExpected assetId) ∧
      listingOf host (resolveMatchPath host tree config candidate allExpected assetId cache).2 =
        listingOf host cache := by
  obtain ⟨hfound, hlisting⟩ := @matchCandidates_spec host tree candidate.expectedSize
    (sortedCandidates config candidate allExpected assetId) cache
  unfold resolveMatchPath family
  rw [firstOfSize_append, ← hfound]
  cases hmatch : matchCandidates host tree candidate.expectedSize
      (sortedCandidates config candidate allExpected assetId) cache with
  | mk found cache' =>
      rw [hmatch] at hlisting
      simp only [hmatch]
      cases found with
      | some found => exact ⟨rfl, hlisting⟩
      | none =>
          by_cases hpolicy : config.fileMatchPolicy = .nameSizeDedupWithSuffix
          · simpa [hpolicy, firstOfSize_flatMap, findIdentityOrdinalSibling_eq] using hlisting
          · simpa [hpolicy, firstOfSize] using hlisting

/-! ## what is found -/

theorem exists_mem_destutter {α β : Type} [DecidableEq β] (f : α → β) {l : List α} {a : α}
    (h : a ∈ l) : ∃ b ∈ l.destutter (fun a b => f a ≠ f b), f b = f a := by
  have hrest : ∀ (l : List α) (first : α), ∀ a ∈ first :: l,
      ∃ b ∈ l.destutter' (fun a b => f a ≠ f b) first, f b = f a := by
    intro l
    induction l with
    | nil => simp
    | cons next l ih =>
        intro first a hmem
        by_cases hdiffer : f first ≠ f next
        · rw [List.destutter'_cons_pos l hdiffer]
          cases List.mem_cons.mp hmem with
          | inl hfirst => exact ⟨first, List.mem_cons_self, by rw [hfirst]⟩
          | inr hlater =>
              obtain ⟨b, hb, hbeq⟩ := ih next a hlater
              exact ⟨b, List.mem_cons_of_mem _ hb, hbeq⟩
        · rw [List.destutter'_cons_neg l hdiffer]
          rw [List.mem_cons, List.mem_cons] at hmem
          rcases hmem with rfl | rfl | hlater
          · exact ih a a List.mem_cons_self
          · obtain ⟨b, hb, hbeq⟩ := ih first first List.mem_cons_self
            exact ⟨b, hb, hbeq.trans (not_not.mp hdiffer)⟩
          · exact ih first a (List.mem_cons_of_mem _ hlater)
  cases l with
  | nil => cases h
  | cons first l => exact hrest l first a h

section
variable {listing : List String → Listing} {config : DownloadConfig}
  {candidate : ImportPathCandidate} {allExpected : List DerivedPath} {assetId : String}

theorem exists_sortedCandidate {path : Path}
    (h : path ∈ importMatchCandidates config candidate allExpected assetId) :
    ∃ path' ∈ sortedCandidates config candidate allExpected assetId,
      components path' = components path :=
  exists_mem_destutter components (List.mem_mergeSort.mpr h)

theorem path_mem_importMatchCandidates :
    candidate.path ∈ importMatchCandidates config candidate allExpected assetId := by
  unfold importMatchCandidates
  split
  · simp
  · split <;> simp

variable {file : Sighting}

theorem exists_firstOfSize {size : Nat} {files : List Sighting} (h : file ∈ files)
    (hsize : file.size = size) : ∃ found, firstOfSize size files = some found := by
  have hfound : (files.find? (fun file => file.size = size)).isSome :=
    List.find?_isSome.mpr ⟨file, h, by simpa using hsize⟩
  obtain ⟨found, hfound⟩ := Option.isSome_iff_exists.mp hfound
  exact ⟨(found.path, found.metadata), by simp [firstOfSize, hfound]⟩

theorem exists_of_firstOfSize {size : Nat} {files : List Sighting} {found : Path × Metadata}
    (h : firstOfSize size files = some found) :
    ∃ file ∈ files, file.size = size ∧ (file.path, file.metadata) = found := by
  obtain ⟨file, hfile, hfound⟩ := Option.map_eq_some_iff.mp h
  exact ⟨file, List.mem_of_find?_eq_some hfile, by simpa using List.find?_some hfile, hfound⟩

theorem exact_mem_family {path : Path} {metadata : Metadata}
    (h : path ∈ importMatchCandidates config candidate allExpected assetId)
    (hfile : tree.metadata (components path) = some metadata) :
    ∃ file ∈ family tree listing config candidate allExpected assetId,
      file.size = metadata.len ∧ components file.path = components path := by
  obtain ⟨path', hmem, hsame⟩ := exists_sortedCandidate h
  refine ⟨⟨path', metadata.len, metadata⟩, ?_, rfl, hsame⟩
  refine List.mem_append_left _ (List.mem_flatMap.mpr ⟨path', hmem, ?_⟩)
  simp [sightings, exactSighting, hsame, hfile]

theorem metadata_of_mem_sightings {path : Path} (h : file ∈ sightings tree listing path) :
    tree.metadata (components file.path) = some file.metadata := by
  unfold sightings at h
  cases List.mem_append.mp h with
  | inl hexact =>
      obtain ⟨metadata, hmeta, rfl⟩ := Option.map_eq_some_iff.mp (Option.mem_toList.mp hexact)
      exact hmeta
  | inr hampm =>
      have hvariant := Option.mem_toList.mp hampm
      simp only [ampmSighting, Option.bind_eq_bind, Option.bind_eq_some_iff,
        Option.pure_def, Option.some.injEq] at hvariant
      obtain ⟨variant, -, size, -, metadata, hmeta, rfl⟩ := hvariant
      exact hmeta

theorem mem_family (h : file ∈ family tree listing config candidate allExpected assetId) :
    (∃ path, file ∈ sightings tree listing path) ∨
      ∃ path, file ∈ siblingSightings tree assetId path := by
  unfold family at h
  cases List.mem_append.mp h with
  | inl hnamed =>
      obtain ⟨path, -, hpath⟩ := List.mem_flatMap.mp hnamed
      exact .inl ⟨path, hpath⟩
  | inr hsibling =>
      split at hsibling
      · obtain ⟨path, -, hpath⟩ := List.mem_flatMap.mp hsibling
        exact .inr ⟨path, hpath⟩
      · cases hsibling

end

end Kei.Import
