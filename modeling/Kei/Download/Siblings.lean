import Kei.Download.Contained
import Kei.Download.Ordinals
import Kei.Download.Retry

/-!
# Kei.Download.Siblings

Where a retried download goes: to the recorded path, or to a new name beside it.

The names beside it are not cleaned, so that no two ordinals stand for one path,
and the search ends once there were more ordinals than there are names taken.
What it gives out is neither in the listing nor claimed.
-/

namespace Kei.Download

open Str

variable {host : Host} {planner : TaskPlanner} {dir : List String}
  {recorded planned : Path} {filename assetId name : String} {expectedSize rounds ordinal : Nat}

/-! ## the loop as it is written -/

namespace TaskPlanner

/-- The loop over the ordinals, with nothing but its own ways out; `none` when it is still
running after so many rounds. -/
def ordinalRetryLoop (host : Host) (dir : List String) (filename assetId : String) :
    (rounds : Nat) → (ordinal : Nat) → TaskPlanner → List String →
      Option (Option Path × TaskPlanner)
  | 0, _, _, _ => none
  | rounds + 1, ordinal, planner, tried =>
      match planner.availableRecordedRetrySibling host dir
        (insertAssetIdentityOrdinalSuffix filename assetId ordinal) tried with
      | (some path, planner, _) => some (some path, planner)
      | (none, planner, tried) =>
          if ordinal + 1 < 2 ^ 64 then
            ordinalRetryLoop host dir filename assetId rounds (ordinal + 1) planner tried
          else
            some (none, planner)

/-- `firstRetrySibling` with that loop. -/
def firstRetrySiblingIn (host : Host) (rounds : Nat) (planner : TaskPlanner) (dir : List String)
    (filename assetId preferred : String) : Option (Option Path × TaskPlanner) :=
  match planner.availableRecordedRetrySibling host dir preferred [] with
  | (some path, planner, _) => some (some path, planner)
  | (none, planner, tried) =>
      match planner.availableRecordedRetrySibling host dir
        (insertAssetIdentitySuffix filename assetId) tried with
      | (some path, planner, _) => some (some path, planner)
      | (none, planner, tried) =>
          ordinalRetryLoop host dir filename assetId rounds 2 planner tried

/-- `resolveRecordedRetryPath` with that loop. -/
def resolveRecordedRetryPathIn (host : Host) (rounds : Nat) (planner : TaskPlanner)
    (recorded planned : Path) (expectedSize : Nat) (assetId : String) :
    Option (Option Path × TaskPlanner) :=
  let planner := planner.release host planned expectedSize
  match parent recorded, fileName recorded with
  | some dir, some filename =>
      let (existingSize, dirCache) := planner.dirCache.fileSize host recorded
      let planner := { planner with dirCache := dirCache }
      if existingSize.isNone && (planner.claimedPaths (normalize host recorded)).isNone then
        some (some recorded, planner.claim host recorded expectedSize)
      else
        let preferred :=
          if existingSize = some expectedSize then insertAssetIdentitySuffix filename assetId
          else addDedupSuffix filename expectedSize
        match planner.firstRetrySiblingIn host rounds dir filename assetId preferred with
        | some (some path, planner) => some (some path, planner.claim host path expectedSize)
        | some (none, planner) => some (none, planner)
        | none => none
  | _, _ => some (none, planner)

/-! ## one name -/

/-- What one try comes to: nothing is claimed, the key is remembered, and the path is given out
if it is free and was not tried. -/
theorem availableRecordedRetrySibling_cases (host : Host) (planner : TaskPlanner)
    (dir : List String) (name : String) (tried : List String) :
    ∃ found planner' tried',
      planner.availableRecordedRetrySibling host dir name tried = (found, planner', tried') ∧
      listingOf host planner'.dirCache = listingOf host planner.dirCache ∧
      planner'.claimedPaths = planner.claimedPaths ∧
      tried' ⊆ normalize host (joinDir dir name) :: tried ∧
      (∀ path, found = some path ↔ path = joinDir dir name ∧ normalize host path ∉ tried ∧
        Free host (listingOf host planner.dirCache) planner.claimedPaths path) := by
  have hlisting : listingOf host (planner.dirCache.pathExists host (joinDir dir name)).2 =
      listingOf host planner.dirCache := by
    rw [pathExists_eq]
    exact listingOf_fileSize _
  unfold availableRecordedRetrySibling
  rw [← joinDir]
  dsimp only
  split
  · next hmem => exact ⟨_, _, _, rfl, rfl, rfl, by simp, fun path => by grind⟩
  · next hnew =>
      rw [pathExists_fst]
      split
      · next hfree =>
          refine ⟨_, _, _, rfl, hlisting, rfl, by simp, fun path => ?_⟩
          simp only [Bool.and_eq_true, Bool.not_eq_true', Option.isSome_eq_false_iff,
            Option.isNone_iff_eq_none] at hfree
          constructor
          · intro h
            cases h
            exact ⟨rfl, hnew, hfree.1, hfree.2⟩
          · intro h
            rw [h.1]
      · next htaken =>
          refine ⟨_, _, _, rfl, hlisting, rfl, by simp, fun path => ?_⟩
          simp only [reduceCtorEq, false_iff]
          rintro ⟨hpath, -, hunlisted, hunclaimed⟩
          rw [hpath] at hunlisted hunclaimed
          simp [hunlisted, hunclaimed] at htaken

/-- A name beside a recorded one is a name, in the same directory. -/
structure Sibling (filename name : String) : Prop where
  suffixed : ∃ suffix : String, '/' ∉ suffix.toList ∧ name = insertSuffix filename suffix

theorem Sibling.plain (h : Sibling filename name) (hplain : Plain filename) :
    Plain name ∧ name ≠ ".." := by
  obtain ⟨suffix, hslash, rfl⟩ := h
  obtain ⟨pre, post, hparts, hname⟩ := insertBeforeExtension_eq filename
  have hlist : (insertSuffix filename suffix).toList = pre ++ '-' :: suffix.toList ++ post := by
    simp [insertSuffix, hname]
  have hfilename : '/' ∉ pre ++ post := hparts ▸ hplain.noSlash
  have hhyphen : '-' ∈ (insertSuffix filename suffix).toList := by simp [hlist]
  refine ⟨⟨?_, ?_, ?_⟩, ?_⟩
  · rw [hlist]
    simp only [List.mem_append, not_or] at hfilename
    simp [hfilename, hslash]
  all_goals
    intro heq
    rw [heq] at hhyphen
    simp at hhyphen

theorem slash_not_mem_assetIdentitySuffix (assetId : String) :
    '/' ∉ (assetIdentitySuffix assetId).toList := by
  intro hmem
  have := cleanFilename_clean assetId '/' hmem
  simp [isInvalid] at this

theorem slash_not_mem_toDigits (n : Nat) : '/' ∉ Nat.toDigits 10 n := by
  intro hmem
  have := Nat.isDigit_of_mem_toDigits (by simp) (by simp) hmem
  simp at this

theorem sibling_dedup (filename : String) (size : Nat) :
    Sibling filename (addDedupSuffix filename size) :=
  ⟨toString size, by simp [slash_not_mem_toDigits], rfl⟩

theorem sibling_identity (filename assetId : String) :
    Sibling filename (insertAssetIdentitySuffix filename assetId) :=
  ⟨assetIdentitySuffix assetId, slash_not_mem_assetIdentitySuffix assetId, rfl⟩

theorem sibling_ordinal (filename assetId : String) (n : Nat) :
    Sibling filename (insertAssetIdentityOrdinalSuffix filename assetId n) := by
  refine ⟨assetIdentitySuffix assetId ++ "-" ++ toString n, ?_, rfl⟩
  simp [slash_not_mem_assetIdentitySuffix, slash_not_mem_toDigits]

/-! ## the search -/

/-- What a search in a directory comes to: nothing is claimed, and what is given out is free. -/
structure Searched (host : Host) (dir : List String) (planner planner' : TaskPlanner)
    (found : Option Path) : Prop where
  listing : listingOf host planner'.dirCache = listingOf host planner.dirCache
  claims : planner'.claimedPaths = planner.claimedPaths
  found : ∀ path ∈ found, parent path = some dir ∧
    Free host (listingOf host planner.dirCache) planner.claimedPaths path

theorem Searched.trans {planner₁ planner₂ : TaskPlanner} {found found' : Option Path}
    (h : Searched host dir planner planner₁ found)
    (h' : Searched host dir planner₁ planner₂ found') :
    Searched host dir planner planner₂ found' where
  listing := h'.listing.trans h.listing
  claims := h'.claims.trans h.claims
  found path hpath := by
    rw [← h.listing, ← h.claims]
    exact h'.found path hpath

variable {planner' : TaskPlanner} {found : Option Path}

theorem Sibling.searched (h : Sibling filename name) (hdir : parent recorded = some dir)
    (hplain : Plain filename) {tried tried' : List String}
    (hrun : planner.availableRecordedRetrySibling host dir name tried = (found, planner', tried')) :
    Searched host dir planner planner' found := by
  obtain ⟨_, _, _, heq, hlisting, hclaims, -, hfound⟩ :=
    availableRecordedRetrySibling_cases host planner dir name tried
  cases heq.symm.trans hrun
  refine ⟨hlisting, hclaims, fun path hpath => ?_⟩
  obtain ⟨rfl, -, hfree⟩ := (hfound path).mp hpath
  have hname := (h.plain hplain).1
  exact ⟨parent_of_components hname (components_joinDir hdir hname), hfree⟩

theorem ordinalRetrySibling_searched (hdir : parent recorded = some dir) (hplain : Plain filename)
    (left ordinal : Nat) (planner : TaskPlanner) (tried : List String)
    (hrun : ordinalRetrySibling host dir filename assetId left ordinal
      planner tried = (found, planner')) : Searched host dir planner planner' found := by
  induction left generalizing ordinal planner tried with
  | zero =>
      cases hrun
      exact ⟨rfl, rfl, by simp⟩
  | succ left ih =>
      unfold ordinalRetrySibling at hrun
      split at hrun
      · next path planner₁ _ htry =>
          cases hrun
          exact (sibling_ordinal filename assetId ordinal).searched hdir hplain htry
      · next planner₁ tried₁ htry =>
          have hfirst := (sibling_ordinal filename assetId ordinal).searched hdir hplain htry
          exact hfirst.trans (ih (ordinal + 1) planner₁ tried₁ hrun)

theorem firstRetrySibling_searched (hdir : parent recorded = some dir) (hplain : Plain filename)
    {preferred : String} (hpreferred : Sibling filename preferred)
    (hrun : planner.firstRetrySibling host dir filename assetId preferred = (found, planner')) :
    Searched host dir planner planner' found := by
  unfold firstRetrySibling at hrun
  split at hrun
  · next path planner₁ _ htry =>
      cases hrun
      exact hpreferred.searched hdir hplain htry
  · next planner₁ tried₁ htry =>
      have hfirst := hpreferred.searched hdir hplain htry
      split at hrun
      · next path planner₂ _ htry₂ =>
          cases hrun
          exact hfirst.trans ((sibling_identity filename assetId).searched hdir hplain htry₂)
      · next planner₂ tried₂ htry₂ =>
          have hsecond := (sibling_identity filename assetId).searched hdir hplain htry₂
          exact (hfirst.trans hsecond).trans (ordinalRetrySibling_searched hdir hplain _ _ _ _ hrun)

/-! ## the end of the loop -/

/-- When the loop ends, it is with what the bounded search gives out. -/
theorem ordinalRetryLoop_agrees {tried : List String} {result : Option Path × TaskPlanner}
    (hordinal : ordinal < 2 ^ 64) (h : ordinalRetryLoop host dir filename assetId rounds ordinal
      planner tried = some result) :
    ordinalRetrySibling host dir filename assetId (2 ^ 64 - ordinal) ordinal planner tried =
      result := by
  induction rounds generalizing ordinal planner tried with
  | zero => cases h
  | succ rounds ih =>
      obtain ⟨left, hleft⟩ : ∃ left, 2 ^ 64 - ordinal = left + 1 := ⟨2 ^ 64 - ordinal - 1, by omega⟩
      rw [hleft, ordinalRetrySibling]
      unfold ordinalRetryLoop at h
      rcases htry : availableRecordedRetrySibling host planner dir
        (insertAssetIdentityOrdinalSuffix filename assetId ordinal) tried with
        ⟨_ | path, planner₁, tried₁⟩
      · simp only [htry] at h ⊢
        split at h
        · next hnext =>
            obtain rfl : left = 2 ^ 64 - (ordinal + 1) := by omega
            exact ih hnext h
        · next hlast =>
            obtain rfl : left = 0 := by omega
            exact Option.some.inj h
      · simp only [htry] at h ⊢
        exact Option.some.inj h

/-- The key of the name with an ordinal. -/
def ordinalKey (host : Host) (dir : List String) (filename assetId : String) (n : Nat) : String :=
  normalize host (joinDir dir (insertAssetIdentityOrdinalSuffix filename assetId n))

theorem ordinalKey_injective (hplain : Plain filename) {n m : Nat}
    (h : ordinalKey host dir filename assetId n = ordinalKey host dir filename assetId m) :
    n = m := by
  obtain ⟨pre, post, hparts, hname⟩ := insertBeforeExtension_eq filename
  have hlist (n : Nat) : (insertAssetIdentityOrdinalSuffix filename assetId n).toList =
      (pre ++ '-' :: (assetIdentitySuffix assetId).toList) ++ '-' :: Nat.toDigits 10 n ++ post := by
    unfold insertAssetIdentityOrdinalSuffix insertSuffix
    rw [hname, ← toList_toString]
    simp
  have hfilename : '/' ∉ pre ++ post := hparts ▸ hplain.noSlash
  have hslash : '/' ∉ pre ++ '-' :: (assetIdentitySuffix assetId).toList := by
    simp only [List.mem_append, not_or] at hfilename
    simp [hfilename.1, slash_not_mem_assetIdentitySuffix]
  exact normalize_join_injective host _ (hlist n) (hlist m) hslash h

theorem not_tried (hplain : Plain filename) {n i : Nat} {tried tried₁ : List String}
    (hlater : n ≠ i) (htried : tried₁ ⊆ ordinalKey host dir filename assetId n :: tried)
    (hnew : ordinalKey host dir filename assetId i ∉ tried) :
    ordinalKey host dir filename assetId i ∉ tried₁ := by
  intro hmem
  obtain hkey | hmem := List.mem_cons.mp (htried hmem)
  · exact hlater (ordinalKey_injective hplain hkey.symm)
  · exact hnew hmem

theorem ordinalRetryLoop_ends (hplain : Plain filename) {i : Nat} {tried : List String}
    (hle : ordinal ≤ i) (hi : i < ordinal + rounds)
    (hnew : ordinalKey host dir filename assetId i ∉ tried)
    (hfree : Free host (listingOf host planner.dirCache) planner.claimedPaths
      (joinDir dir (insertAssetIdentityOrdinalSuffix filename assetId i))) :
    ∃ result, ordinalRetryLoop host dir filename assetId rounds ordinal planner tried =
      some result := by
  induction rounds generalizing ordinal planner tried with
  | zero => omega
  | succ rounds ih =>
      obtain ⟨found, planner₁, tried₁, heq, hlisting, hclaims, htried, hfound⟩ :=
        availableRecordedRetrySibling_cases host planner dir
          (insertAssetIdentityOrdinalSuffix filename assetId ordinal) tried
      unfold ordinalRetryLoop
      rw [heq]
      cases found with
      | some path => exact ⟨_, rfl⟩
      | none =>
          dsimp only
          split
          · have hlater : ordinal ≠ i := by
              intro hsame
              subst hsame
              have := (hfound _).mpr ⟨rfl, hnew, hfree⟩
              cases this
            rw [← hlisting, ← hclaims] at hfree
            exact ih (by omega) (by omega) (not_tried hplain hlater htried hnew) hfree
          · exact ⟨_, rfl⟩

theorem exists_free_ordinal (hdir : parent recorded = some dir) (hplain : Plain filename)
    (assetId : String) {claimed : Finset String}
    (hclaimed : ∀ key, planner.claimedPaths key ≠ none → key ∈ claimed) (tried : List String)
    (hrounds : (listingOf host planner.dirCache dir).length + claimed.card + tried.length <
      rounds) :
    ∃ i, 2 ≤ i ∧ i < 2 + rounds ∧ ordinalKey host dir filename assetId i ∉ tried ∧
      Free host (listingOf host planner.dirCache) planner.claimedPaths
        (joinDir dir (insertAssetIdentityOrdinalSuffix filename assetId i)) := by
  obtain ⟨i, hi, hunlisted, hnew⟩ := @exists_outside _ _ _ _ (Finset.Ico 2 (2 + rounds))
    (insertAssetIdentityOrdinalSuffix filename assetId) (ordinalKey host dir filename assetId)
    (fun i _ j _ h => ordinalKey_injective hplain (congrArg (normalize host ∘ joinDir dir) h))
    (fun i _ j _ h => ordinalKey_injective hplain h)
    ((listingOf host planner.dirCache dir).map Prod.fst) (tried ++ claimed.toList) (by
      rw [List.length_map, List.length_append, Finset.length_toList, Nat.card_Ico]
      omega)
  rw [List.mem_append, not_or, Finset.mem_toList] at hnew
  obtain ⟨hlow, hhigh⟩ := Finset.mem_Ico.mp hi
  refine ⟨i, hlow, hhigh, hnew.1, ?_, ?_⟩
  · obtain ⟨hname, hup⟩ := (sibling_ordinal filename assetId i).plain hplain
    have hcomponents := components_joinDir hdir hname
    unfold listedSize
    rw [fileName_of_components hname hup hcomponents, parent_of_components hname hcomponents]
    refine List.lookup_eq_none_iff.mpr fun entry hentry => ?_
    rw [bne_iff_ne]
    exact fun h => hunlisted (List.mem_map.mpr ⟨entry, hentry, h.symm⟩)
  · by_contra hclaim
    exact hnew.2 (hclaimed _ hclaim)

/-- A free ordinal is found, or one before it. -/
theorem ordinalRetrySibling_isSome (hplain : Plain filename) {i left : Nat} {tried : List String}
    (hle : ordinal ≤ i) (hi : i < ordinal + left)
    (hnew : ordinalKey host dir filename assetId i ∉ tried)
    (hfree : Free host (listingOf host planner.dirCache) planner.claimedPaths
      (joinDir dir (insertAssetIdentityOrdinalSuffix filename assetId i))) :
    (ordinalRetrySibling host dir filename assetId left ordinal planner tried).1.isSome := by
  induction left generalizing ordinal planner tried with
  | zero => omega
  | succ left ih =>
      obtain ⟨found, planner₁, tried₁, heq, hlisting, hclaims, htried, hfound⟩ :=
        availableRecordedRetrySibling_cases host planner dir
          (insertAssetIdentityOrdinalSuffix filename assetId ordinal) tried
      unfold ordinalRetrySibling
      rw [heq]
      cases found with
      | some path => rfl
      | none =>
          have hlater : ordinal ≠ i := by
            rintro rfl
            cases (hfound _).mpr ⟨rfl, hnew, hfree⟩
          rw [← hlisting, ← hclaims] at hfree
          exact ih (by omega) (by omega) (not_tried hplain hlater htried hnew) hfree

/-- With more rounds than names are taken, the search with the loop comes to the bounded one. -/
theorem firstRetrySiblingIn_eq (hdir : parent recorded = some dir) (hplain : Plain filename)
    {preferred : String} {claimed : Finset String}
    (hclaimed : ∀ key, planner.claimedPaths key ≠ none → key ∈ claimed)
    (hrounds : (listingOf host planner.dirCache dir).length + claimed.card + 2 < rounds) :
    planner.firstRetrySiblingIn host rounds dir filename assetId preferred =
      some (planner.firstRetrySibling host dir filename assetId preferred) := by
  obtain ⟨found₁, planner₁, tried₁, heq₁, hlisting₁, hclaims₁, htried₁, -⟩ :=
    availableRecordedRetrySibling_cases host planner dir preferred []
  obtain ⟨found₂, planner₂, tried₂, heq₂, hlisting₂, hclaims₂, htried₂, -⟩ :=
    availableRecordedRetrySibling_cases host planner₁ dir
      (insertAssetIdentitySuffix filename assetId) tried₁
  unfold firstRetrySiblingIn firstRetrySibling
  rw [heq₁]
  cases found₁ with
  | some path => rfl
  | none =>
      dsimp only
      rw [heq₂]
      cases found₂ with
      | some path => rfl
      | none =>
          dsimp only
          rw [← hlisting₁, ← hlisting₂] at hrounds
          rw [← hclaims₁, ← hclaims₂] at hclaimed
          obtain ⟨i, hlow, hhigh, hnew, hfree⟩ := exists_free_ordinal hdir hplain assetId hclaimed
            [normalize host (joinDir dir (insertAssetIdentitySuffix filename assetId)),
              normalize host (joinDir dir preferred)] hrounds
          have hsub := List.Subset.trans htried₂ (List.cons_subset_cons _ htried₁)
          obtain ⟨result, hresult⟩ := ordinalRetryLoop_ends hplain hlow hhigh
            (fun hmem => hnew (hsub hmem)) hfree
          rw [hresult, ← ordinalRetryLoop_agrees (by omega) hresult]

/-! ## the path of a retry -/

/-- What is reserved for a retry: a path beside the recorded one that no file and no other task
has, and nothing else. -/
structure RetryReserved (host : Host) (planner : TaskPlanner) (recorded planned : Path)
    (expectedSize : Nat) (found : Option Path) (planner' : TaskPlanner) : Prop where
  listing : listingOf host planner'.dirCache = listingOf host planner.dirCache
  free : ∀ path ∈ found, Free host (listingOf host planner.dirCache)
    (planner.release host planned expectedSize).claimedPaths path
  beside : ∀ path ∈ found, parent path = parent recorded
  claimed : ∀ path ∈ found, planner'.claimedPaths (normalize host path) = some expectedSize
  others : ∀ key, (∀ path ∈ found, key ≠ normalize host path) →
    planner'.claimedPaths key = (planner.release host planned expectedSize).claimedPaths key

theorem RetryReserved.of_claim {released planner' : TaskPlanner} {path : Path}
    (hreleased : planner.release host planned expectedSize = released)
    (hlisting : listingOf host planner'.dirCache = listingOf host planner.dirCache)
    (hclaims : planner'.claimedPaths = released.claimedPaths)
    (hfree : Free host (listingOf host planner.dirCache) released.claimedPaths path)
    (hbeside : parent path = parent recorded) :
    RetryReserved host planner recorded planned expectedSize (some path)
      (planner'.claim host path expectedSize) := by
  subst hreleased
  refine ⟨hlisting, ?_, ?_, ?_, fun key hkey => ?_⟩
  · simpa using hfree
  · simpa using hbeside
  · simp [claim]
  · simp [claim, hclaims, Function.update_of_ne (hkey path rfl)]

@[simp] theorem dirCache_release : (planner.release host planned expectedSize).dirCache =
    planner.dirCache := by
  unfold release
  split <;> rfl

/-- What is released is the reservation of the planned path, if it has the size of the task. -/
theorem claimedPaths_release (key : String) :
    (planner.release host planned expectedSize).claimedPaths key =
      if key = normalize host planned ∧ planner.claimedPaths key = some expectedSize then none
      else planner.claimedPaths key := by
  unfold release
  by_cases hkey : key = normalize host planned
  · subst hkey
    split <;> simp_all
  · split <;> simp [hkey]

/-- With fewer names taken than there are ordinals, a path is found. -/
theorem resolveRecordedRetryPath_isSome (hdir : parent recorded = some dir)
    (hname : (fileName recorded).isSome) {claimed : Finset String}
    (hclaimed : ∀ key, planner.claimedPaths key ≠ none → key ∈ claimed)
    (hroom : (listingOf host planner.dirCache dir).length + claimed.card + 4 < 2 ^ 64) :
    (planner.resolveRecordedRetryPath host recorded planned expectedSize assetId).1.isSome := by
  obtain ⟨filename, hfilename⟩ := Option.isSome_iff_exists.mp hname
  have hplain := plain_of_fileName hfilename
  have hkept (key : String)
      (hkey : (planner.release host planned expectedSize).claimedPaths key ≠ none) :
      key ∈ claimed := by
    refine hclaimed key fun hnone => hkey ?_
    rw [claimedPaths_release]
    simp [hnone]
  have hcache : (planner.release host planned expectedSize).dirCache = planner.dirCache :=
    dirCache_release
  have hlisting := @listingOf_fileSize host planner.dirCache recorded
  unfold resolveRecordedRetryPath
  simp only [hdir, hfilename, hcache]
  generalize planner.release host planned expectedSize = released at hkept
  split
  · rfl
  · have hsome (preferred : String) : (firstRetrySibling host ⟨released.claimedPaths,
        (planner.dirCache.fileSize host recorded).2⟩ dir filename assetId preferred).1.isSome := by
      obtain ⟨found₁, planner₁, tried₁, heq₁, hlisting₁, hclaims₁, htried₁, -⟩ :=
        availableRecordedRetrySibling_cases host ⟨released.claimedPaths,
          (planner.dirCache.fileSize host recorded).2⟩ dir preferred []
      obtain ⟨found₂, planner₂, tried₂, heq₂, hlisting₂, hclaims₂, htried₂, -⟩ :=
        availableRecordedRetrySibling_cases host planner₁ dir
          (insertAssetIdentitySuffix filename assetId) tried₁
      unfold firstRetrySibling
      rw [heq₁]
      cases found₁ with
      | some path => rfl
      | none =>
          dsimp only
          rw [heq₂]
          cases found₂ with
          | some path => rfl
          | none =>
              have hsame : listingOf host planner₂.dirCache = listingOf host planner.dirCache :=
                (hlisting₂.trans hlisting₁).trans hlisting
              have hclaims : planner₂.claimedPaths = released.claimedPaths :=
                hclaims₂.trans hclaims₁
              obtain ⟨i, hlow, hhigh, hnew, hfree⟩ := @exists_free_ordinal host planner₂ dir
                recorded filename (2 ^ 64 - 2) hdir hplain assetId claimed
                (by rw [hclaims]; exact hkept)
                [normalize host (joinDir dir (insertAssetIdentitySuffix filename assetId)),
                  normalize host (joinDir dir preferred)] (by
                    rw [hsame]
                    simp only [List.length_cons, List.length_nil]
                    omega)
              have hsub := List.Subset.trans htried₂ (List.cons_subset_cons _ htried₁)
              exact ordinalRetrySibling_isSome hplain hlow hhigh (fun hmem => hnew (hsub hmem))
                hfree
    split
    · rfl
    · next hfirst =>
        have hfound := congrArg (fun result => result.1.isSome) hfirst
        simp [hsome] at hfound

/-- **The search for the path of a retry ends, and no file and no other task has the path**: the
loop is done within three rounds more than there are names in the directory and claims. -/
theorem resolveRecordedRetryPath_free (host : Host) (planner : TaskPlanner)
    (recorded planned : Path) (expectedSize : Nat) (assetId : String) (claimed : Finset String)
    (hclaimed : ∀ key, planner.claimedPaths key ≠ none → key ∈ claimed) :
    ∃ found planner',
      (∀ rounds, ((parent recorded).elim 0 fun dir => (listingOf host planner.dirCache dir).length)
          + claimed.card + 2 < rounds →
        planner.resolveRecordedRetryPathIn host rounds recorded planned expectedSize assetId =
          some (found, planner')) ∧
      planner.resolveRecordedRetryPath host recorded planned expectedSize assetId =
        (found, planner') ∧
      RetryReserved host planner recorded planned expectedSize found planner' := by
  generalize hreleased : planner.release host planned expectedSize = released
  have hcache : released.dirCache = planner.dirCache := by rw [← hreleased, dirCache_release]
  have hkept : ∀ key, released.claimedPaths key ≠ none → key ∈ claimed := by
    intro key hkey
    refine hclaimed key fun hnone => hkey ?_
    rw [← hreleased, claimedPaths_release]
    simp [hnone]
  unfold resolveRecordedRetryPathIn resolveRecordedRetryPath
  dsimp only
  rw [hreleased, fileSize_fst, hcache]
  have hnone {planner' : TaskPlanner}
      (hlisting : listingOf host planner'.dirCache = listingOf host planner.dirCache)
      (hclaims : planner'.claimedPaths = released.claimedPaths) :
      RetryReserved host planner recorded planned expectedSize none planner' :=
    ⟨hlisting, by simp, by simp, by simp, fun key _ => by rw [hclaims, hreleased]⟩
  cases hdir : parent recorded with
  | none => exact ⟨_, _, fun _ _ => rfl, rfl, hnone (by rw [hcache]) rfl⟩
  | some dir =>
      cases hname : fileName recorded with
      | none => exact ⟨_, _, fun _ _ => rfl, rfl, hnone (by rw [hcache]) rfl⟩
      | some filename =>
          dsimp only
          have hlisting := @listingOf_fileSize host planner.dirCache recorded
          split
          · next hfree =>
              simp only [Bool.and_eq_true, Option.isNone_iff_eq_none] at hfree
              exact ⟨_, _, fun _ _ => rfl, rfl, .of_claim hreleased hlisting rfl
                ⟨hfree.1, hfree.2⟩ rfl⟩
          · generalize hpreferred : (if listedSize (listingOf host planner.dirCache) recorded =
              some expectedSize then insertAssetIdentitySuffix filename assetId
              else addDedupSuffix filename expectedSize) = preferred
            have hsibling : Sibling filename preferred := by
              rw [← hpreferred]
              split
              · exact sibling_identity filename assetId
              · exact sibling_dedup filename expectedSize
            have hplain := plain_of_fileName hname
            have hrun (rounds : Nat) (hrounds : (listingOf host planner.dirCache dir).length +
                claimed.card + 2 < rounds) := @firstRetrySiblingIn_eq host
              ⟨released.claimedPaths, (planner.dirCache.fileSize host recorded).2⟩ dir recorded
              filename assetId rounds hdir hplain preferred claimed hkept
              (by rw [hlisting]; exact hrounds)
            cases hfirst : TaskPlanner.firstRetrySibling host
                ⟨released.claimedPaths, (planner.dirCache.fileSize host recorded).2⟩ dir filename
                assetId preferred with
            | mk found planner' =>
                have hsearched := firstRetrySibling_searched hdir hplain hsibling hfirst
                rw [hfirst] at hrun
                cases found with
                | none =>
                    refine ⟨none, planner', fun rounds hrounds => ?_, rfl, ?_⟩
                    · rw [hrun rounds hrounds]
                    · exact hnone (hsearched.listing.trans hlisting) hsearched.claims
                | some path =>
                    obtain ⟨hbeside, hfree⟩ := hsearched.found path rfl
                    rw [hlisting] at hfree
                    refine ⟨some path, _, fun rounds hrounds => ?_, rfl, ?_⟩
                    · rw [hrun rounds hrounds]
                    · exact .of_claim hreleased (hsearched.listing.trans hlisting)
                        hsearched.claims hfree (hbeside.trans hdir.symm)

/-- A plan in which another task has the first sibling of a photo on the disk. -/
def crowdedPlanner : TaskPlanner :=
  (TaskPlanner.new.claim batchHost "/photos/IMG_0001-10.JPG" 10).claim batchHost "/photos/B.JPG" 10

/-- A file stands at the recorded path, the preferred name is claimed, and the next one is taken. -/
theorem resolveRecordedRetryPath_free_crowded : ∃ planner',
    RetryReserved batchHost crowdedPlanner "/photos/IMG_0001.JPG" "/photos/B.JPG" 10
      (some "/photos/IMG_0001-A.JPG") planner' := by
  obtain ⟨found, planner', -, hfound, hreserved⟩ := resolveRecordedRetryPath_free batchHost
    crowdedPlanner "/photos/IMG_0001.JPG" "/photos/B.JPG" 10 "A"
    {"/photos/IMG_0001-10.JPG", "/photos/B.JPG"} (fun key hkey => by
      by_contra hother
      simp only [Finset.mem_insert, Finset.mem_singleton, not_or] at hother
      refine hkey ?_
      have hpath : normalize batchHost "/photos/IMG_0001-10.JPG" = "/photos/IMG_0001-10.JPG" ∧
          normalize batchHost "/photos/B.JPG" = "/photos/B.JPG" := by decide +kernel
      simp [crowdedPlanner, claim, hpath, hother, TaskPlanner.new])
  have hsibling : (crowdedPlanner.resolveRecordedRetryPath batchHost "/photos/IMG_0001.JPG"
      "/photos/B.JPG" 10 "A").1 = some "/photos/IMG_0001-A.JPG" := by decide +kernel
  rw [hfound] at hsibling
  cases hsibling
  exact ⟨planner', hreserved⟩

end TaskPlanner

end Kei.Download
