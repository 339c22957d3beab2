import Kei.Download.CleanNames
import Kei.Download.Occupied
import Mathlib.Data.Finset.Card
import Mathlib.Order.Interval.Finset.Nat

/-!
# Kei.Download.Ordinals

The search for a free name, which has no bound in the source.

The names are tried in a fixed order: the preferred one, the one with the asset
id, and then one for each ordinal from 2 on.  The limit of 255 bytes can cut the
ordinal off a name, so that different ordinals stand for one and the same path;
the search ends exactly if one of the paths is free where it comes up first.
-/

namespace Kei.Download

open Str

variable {host : Host} {ctx : ResolveContext} {cache cache' : DirCache} {fuel : Nat}
  {preferred : CollisionFilenameKind} {makeFilename : CollisionFilenameKind → String}

/-! ## the order of the names -/

/-- What is tried at a place of the order. -/
def kindAt (preferred : CollisionFilenameKind) : Nat → CollisionFilenameKind
  | 0 => preferred
  | 1 => .assetIdentity
  | n + 2 => .assetIdentityOrdinal (n + 2)

theorem kindAt_of_le {preferred : CollisionFilenameKind} {i : Nat} (h : 2 ≤ i) :
    kindAt preferred i = .assetIdentityOrdinal i := by
  obtain ⟨n, rfl⟩ := Nat.exists_eq_add_of_le' h
  rfl

/-- The path that is tried there. -/
def pathAt (host : Host) (ctx : ResolveContext) (preferred : CollisionFilenameKind)
    (makeFilename : CollisionFilenameKind → String) (i : Nat) : Path :=
  pathOf host ctx.config ctx.createdLocal (makeFilename (kindAt preferred i))

/-- The key under which it is remembered. -/
def keyAt (host : Host) (ctx : ResolveContext) (preferred : CollisionFilenameKind)
    (makeFilename : CollisionFilenameKind → String) (i : Nat) : String :=
  normalize host (pathAt host ctx preferred makeFilename i)

/-- Neither in the listing of its directory nor claimed. -/
structure Free (host : Host) (listing : List String → Listing) (claimedPaths : ClaimedPaths)
    (path : Path) : Prop where
  unlisted : listedSize listing path = none
  unclaimed : claimedPaths (normalize host path) = none

/-- A place of the order whose path is free and was not tried under an earlier name. -/
structure FreeAt (host : Host) (ctx : ResolveContext) (listing : List String → Listing)
    (preferred : CollisionFilenameKind) (makeFilename : CollisionFilenameKind → String)
    (i : Nat) : Prop where
  free : Free host listing ctx.claimedPaths (pathAt host ctx preferred makeFilename i)
  first : ∀ j < i, keyAt host ctx preferred makeFilename j ≠
    keyAt host ctx preferred makeFilename i

/-! ## one name -/

@[simp] theorem pathExists_fst (path : Path) :
    (cache.pathExists host path).1 = (listedSize (listingOf host cache) path).isSome := by
  rw [pathExists_eq]
  simp

/-- What one try comes to: the key is remembered, and the path is given out if it is free and
was not tried. -/
theorem availableCollisionPath_cases (tried : List String) (i : Nat) :
    ∃ found cache' tried',
      availableCollisionPath host ctx makeFilename (kindAt preferred i) cache tried =
        (found, cache', tried') ∧
      listingOf host cache' = listingOf host cache ∧
      (∀ key, key ∈ tried' ↔ key ∈ tried ∨ key = keyAt host ctx preferred makeFilename i) ∧
      (∀ path, found = some path ↔ path = pathAt host ctx preferred makeFilename i ∧
        keyAt host ctx preferred makeFilename i ∉ tried ∧
        Free host (listingOf host cache) ctx.claimedPaths path) := by
  have hlisting := @listingOf_availableCollisionPath host cache ctx makeFilename
    (kindAt preferred i) tried
  unfold availableCollisionPath at hlisting ⊢
  dsimp only at hlisting ⊢
  split at hlisting
  · next hmem =>
      rw [if_pos hmem]
      refine ⟨_, _, _, rfl, rfl, fun key => ?_, fun path => ?_⟩
      · refine ⟨.inl, fun h => h.elim id fun hkey => ?_⟩
        rw [hkey]
        exact hmem
      · simp only [reduceCtorEq, false_iff, not_and]
        exact fun _ hnot => absurd hmem hnot
  · next hmem =>
      rw [if_neg hmem]
      split at hlisting
      · next htaken =>
          rw [if_pos htaken]
          refine ⟨_, _, _, rfl, hlisting, fun key => ?_, fun path => ?_⟩
          · simp [keyAt, pathAt]
          · rw [pathExists_fst, Bool.or_eq_true] at htaken
            simp only [reduceCtorEq, false_iff, not_and]
            rintro rfl - hfree
            have hsize := hfree.unlisted
            have hclaim := hfree.unclaimed
            unfold pathAt at hsize hclaim
            rw [hsize, hclaim] at htaken
            simp at htaken
      · next hfree =>
          rw [if_neg hfree]
          refine ⟨_, _, _, rfl, hlisting, fun key => ?_, fun path => ?_⟩
          · simp [keyAt, pathAt]
          · rw [pathExists_fst, Bool.or_eq_true, not_or, Bool.not_eq_true, Bool.not_eq_true,
              Option.isSome_eq_false_iff, Option.isSome_eq_false_iff, Option.isNone_iff_eq_none,
              Option.isNone_iff_eq_none] at hfree
            constructor
            · intro h
              cases h
              exact ⟨rfl, hmem, hfree.1, hfree.2⟩
            · rintro ⟨rfl, -, -⟩
              rfl

/-! ## the loop -/

/-- What the loop over the ordinals gives out is free where it comes up first: the keys of the
names before the ordinal are remembered, in the first round and in every later one. -/
theorem ordinalCollisionPath_freeAt {ordinal : Nat} {tried : List String} {path : Path}
    (hordinal : 2 ≤ ordinal) (hbound : ordinal < 2 ^ 64)
    (htried : ∀ j < ordinal, keyAt host ctx preferred makeFilename j ∈ tried)
    (h : ordinalCollisionPath host ctx makeFilename fuel ordinal cache tried =
      some (path, cache')) :
    ∃ i < 2 ^ 64, path = pathAt host ctx preferred makeFilename i ∧
      FreeAt host ctx (listingOf host cache) preferred makeFilename i := by
  induction fuel generalizing ordinal cache tried with
  | zero => contradiction
  | succ fuel ih =>
      obtain ⟨found, cache₁, tried₁, heq, hlisting, hkeys, hfound⟩ :=
        @availableCollisionPath_cases host ctx cache preferred makeFilename tried ordinal
      rw [kindAt_of_le hordinal] at heq
      rw [ordinalCollisionPath, heq] at h
      cases found with
      | some path₁ =>
          cases h
          obtain ⟨hpath, hnew, hfree⟩ := (hfound path).mp rfl
          refine ⟨ordinal, hbound, hpath, hpath ▸ hfree, fun j hj hkey => ?_⟩
          exact hnew (hkey ▸ htried j hj)
      | none =>
          have hnext : 2 ≤ nextOrdinal ordinal ∧ nextOrdinal ordinal < 2 ^ 64 ∧
              nextOrdinal ordinal ≤ ordinal + 1 := by
            unfold nextOrdinal
            split <;> omega
          rw [← hlisting]
          refine ih hnext.1 hnext.2.1 (fun j hj => ?_) h
          rw [hkeys]
          by_cases hlast : j = ordinal
          · exact .inr (hlast ▸ rfl)
          · exact .inl (htried j (by omega))

/-- A free place at the ordinal or after it is found in the first round. -/
theorem ordinalCollisionPath_of_freeAt {i : Nat} (hi : i < 2 ^ 64)
    (hfree : FreeAt host ctx (listingOf host cache) preferred makeFilename i) {ordinal : Nat}
    {tried : List String} (hordinal : 2 ≤ ordinal) (hle : ordinal ≤ i)
    (htried : ∀ key ∈ tried, ∃ j < ordinal, key = keyAt host ctx preferred makeFilename j) :
    ∃ path cache', ordinalCollisionPath host ctx makeFilename (i - ordinal + 1) ordinal cache
      tried = some (path, cache') := by
  induction hn : i - ordinal generalizing ordinal cache tried with
  | zero =>
      obtain rfl : ordinal = i := by omega
      obtain ⟨found, cache₁, tried₁, heq, -, -, hfound⟩ :=
        @availableCollisionPath_cases host ctx cache preferred makeFilename tried ordinal
      have hnew : keyAt host ctx preferred makeFilename ordinal ∉ tried := by
        intro hmem
        obtain ⟨j, hj, hkey⟩ := htried _ hmem
        exact hfree.first j hj hkey.symm
      have hsome := (hfound _).mpr ⟨rfl, hnew, hfree.free⟩
      rw [kindAt_of_le hordinal, hsome] at heq
      exact ⟨_, cache₁, by rw [ordinalCollisionPath, heq]⟩
  | succ n ih =>
      obtain ⟨found, cache₁, tried₁, heq, hlisting, hkeys, -⟩ :=
        @availableCollisionPath_cases host ctx cache preferred makeFilename tried ordinal
      rw [kindAt_of_le hordinal] at heq
      cases found with
      | some path => exact ⟨path, cache₁, by rw [ordinalCollisionPath, heq]⟩
      | none =>
          have hnext : nextOrdinal ordinal = ordinal + 1 := by
            unfold nextOrdinal
            rw [if_pos (by omega)]
          have hkeys₁ : ∀ key ∈ tried₁, ∃ j < ordinal + 1,
              key = keyAt host ctx preferred makeFilename j := by
            intro key hkey
            rcases (hkeys key).mp hkey with hkey | hkey
            · obtain ⟨j, hj, hkey⟩ := htried key hkey
              exact ⟨j, by omega, hkey⟩
            · exact ⟨ordinal, by omega, hkey⟩
          rw [← hlisting] at hfree
          obtain ⟨path, cache₂, hrun⟩ := ih hfree (by omega) (by omega) hkeys₁ (by omega)
          refine ⟨path, cache₂, ?_⟩
          rw [ordinalCollisionPath, heq]
          rw [hnext]
          exact hrun

/-! ## the search -/

theorem firstAvailableCollisionPath_freeAt {path : Path}
    (h : firstAvailableCollisionPath host fuel ctx cache preferred makeFilename =
      some (path, cache')) :
    ∃ i < 2 ^ 64, path = pathAt host ctx preferred makeFilename i ∧
      FreeAt host ctx (listingOf host cache) preferred makeFilename i := by
  obtain ⟨found, cache₁, tried₁, heq, hlisting, hkeys, hfound⟩ :=
    @availableCollisionPath_cases host ctx cache preferred makeFilename [] 0
  change availableCollisionPath host ctx makeFilename preferred cache [] = _ at heq
  unfold firstAvailableCollisionPath at h
  rw [heq] at h
  cases found with
  | some path₁ =>
      cases h
      obtain ⟨hpath, -, hfree⟩ := (hfound path).mp rfl
      exact ⟨0, by omega, hpath, hpath ▸ hfree, by omega⟩
  | none =>
      obtain ⟨found, cache₂, tried₂, heq₂, hlisting₂, hkeys₂, hfound₂⟩ :=
        @availableCollisionPath_cases host ctx cache₁ preferred makeFilename tried₁ 1
      change availableCollisionPath host ctx makeFilename .assetIdentity cache₁ tried₁ = _ at heq₂
      dsimp only at h
      rw [heq₂] at h
      rw [← hlisting]
      cases found with
      | some path₂ =>
          cases h
          obtain ⟨hpath, hnew, hfree⟩ := (hfound₂ path).mp rfl
          refine ⟨1, by omega, hpath, hpath ▸ hfree, fun j hj hkey => hnew ?_⟩
          obtain rfl : j = 0 := by omega
          exact (hkeys _).mpr (.inr hkey.symm)
      | none =>
          rw [← hlisting₂]
          refine ordinalCollisionPath_freeAt (by omega) (by omega) (fun j hj => ?_) h
          rw [hkeys₂, hkeys]
          obtain rfl | rfl : j = 0 ∨ j = 1 := by omega
          · exact .inl (.inr rfl)
          · exact .inr rfl

theorem firstAvailableCollisionPath_of_freeAt {i : Nat} (hi : i < 2 ^ 64)
    (hfree : FreeAt host ctx (listingOf host cache) preferred makeFilename i) :
    ∃ fuel path cache', firstAvailableCollisionPath host fuel ctx cache preferred makeFilename =
      some (path, cache') := by
  obtain ⟨found, cache₁, tried₁, heq, hlisting, hkeys, hfound⟩ :=
    @availableCollisionPath_cases host ctx cache preferred makeFilename [] 0
  change availableCollisionPath host ctx makeFilename preferred cache [] = _ at heq
  unfold firstAvailableCollisionPath
  simp only [heq]
  cases found with
  | some path => exact ⟨0, path, cache₁, rfl⟩
  | none =>
      have hi₀ : i ≠ 0 := by
        rintro rfl
        have := (hfound _).mpr ⟨rfl, by simp, hfree.free⟩
        contradiction
      obtain ⟨found, cache₂, tried₂, heq₂, hlisting₂, hkeys₂, hfound₂⟩ :=
        @availableCollisionPath_cases host ctx cache₁ preferred makeFilename tried₁ 1
      change availableCollisionPath host ctx makeFilename .assetIdentity cache₁ tried₁ = _ at heq₂
      simp only [heq₂]
      rw [← hlisting] at hfree
      cases found with
      | some path => exact ⟨0, path, cache₂, rfl⟩
      | none =>
          have hi₁ : i ≠ 1 := by
            rintro rfl
            have hnew : keyAt host ctx preferred makeFilename 1 ∉ tried₁ := by
              intro hmem
              rcases (hkeys _).mp hmem with hmem | hkey
              · simp at hmem
              · exact hfree.first 0 (by omega) hkey.symm
            have := (hfound₂ _).mpr ⟨rfl, hnew, hfree.free⟩
            contradiction
          rw [← hlisting₂] at hfree
          obtain ⟨path, cache₃, hrun⟩ :=
            @ordinalCollisionPath_of_freeAt _ _ _ _ _ _ hi hfree _ tried₂
            (Nat.le_refl 2) (by omega) fun key hkey => by
              rcases (hkeys₂ key).mp hkey with hkey | hkey
              · rcases (hkeys key).mp hkey with hkey | hkey
                · simp at hkey
                · exact ⟨0, by omega, hkey⟩
              · exact ⟨1, by omega, hkey⟩
          exact ⟨_, path, cache₃, hrun⟩

/-- **The search for a free name ends, with one, exactly if one of the names it tries is free
where it comes up first.** -/
theorem firstAvailableCollisionPath_ends_iff (host : Host) (ctx : ResolveContext)
    (cache : DirCache) (preferred : CollisionFilenameKind)
    (makeFilename : CollisionFilenameKind → String) :
    (∃ fuel path cache',
      firstAvailableCollisionPath host fuel ctx cache preferred makeFilename =
        some (path, cache') ∧
      Free host (listingOf host cache) ctx.claimedPaths path) ↔
    ∃ i < 2 ^ 64, FreeAt host ctx (listingOf host cache) preferred makeFilename i := by
  constructor
  · rintro ⟨fuel, path, cache', hrun, -⟩
    obtain ⟨i, hi, -, hfree⟩ := firstAvailableCollisionPath_freeAt hrun
    exact ⟨i, hi, hfree⟩
  · rintro ⟨i, hi, hfree⟩
    obtain ⟨fuel, path, cache', hrun⟩ := firstAvailableCollisionPath_of_freeAt hi hfree
    obtain ⟨j, -, rfl, hfound⟩ := firstAvailableCollisionPath_freeAt hrun
    exact ⟨fuel, _, cache', hrun, hfound.free⟩

/-! ## names with room for the ordinal -/

/-- The name of an ordinal, cleaned. -/
def ordinalName (filename assetId : String) (n : Nat) : String :=
  cleanFilename (insertAssetIdentityOrdinalSuffix filename assetId n)

theorem toNat_of_isDigit {c : Char} (h : c.isDigit = true) : 48 ≤ c.toNat ∧ c.toNat ≤ 57 := by
  simp only [Char.isDigit, Bool.and_eq_true, decide_eq_true_eq, ge_iff_le,
    UInt32.le_iff_toNat_le] at h
  exact h

theorem isInvalid_of_isDigit {c : Char} (h : c.isDigit = true) : isInvalid c = false := by
  have hrange := toNat_of_isDigit h
  unfold isInvalid isControl
  rw [Bool.or_eq_false_iff]
  constructor
  · rw [decide_eq_false_iff_not]
    intro hmem
    simp only [List.mem_cons, List.not_mem_nil, or_false] at hmem
    rcases hmem with rfl | rfl | rfl | rfl | rfl | rfl | rfl | rfl | rfl <;> simp at h
  · rw [Bool.or_eq_false_iff, Bool.and_eq_false_iff, decide_eq_false_iff_not,
      decide_eq_false_iff_not]
    exact ⟨by omega, .inl (by omega)⟩

theorem cleanChars_toDigits (n : Nat) : cleanChars (Nat.toDigits 10 n) = Nat.toDigits 10 n := by
  refine cleanChars_eq_self (List.any_eq_false.mpr fun c hc => ?_)
  rw [isInvalid_of_isDigit (Nat.isDigit_of_mem_toDigits (by simp) (by simp) hc)]
  simp

theorem bytesOf_toDigits (n : Nat) : bytesOf (Nat.toDigits 10 n) = (Nat.toDigits 10 n).length := by
  refine bytesOf_of_all_one fun c hc => ?_
  have hrange := toNat_of_isDigit (Nat.isDigit_of_mem_toDigits (by simp) (by simp) hc)
  have hval : c.val ≤ 127 := UInt32.le_iff_toNat_le.mpr (by
    have : c.val.toNat = c.toNat := rfl
    have : (127 : UInt32).toNat = 127 := rfl
    omega)
  exact Char.utf8Size_eq_one_iff.mpr hval

/-- The longest ordinal has 20 digits, and no other one has more. -/
theorem bytesOf_toDigits_le {n : Nat} (h : n < 2 ^ 64) :
    bytesOf (Nat.toDigits 10 n) ≤ bytesOf (Nat.toDigits 10 (2 ^ 64 - 1)) := by
  rw [bytesOf_toDigits, bytesOf_toDigits]
  have hshort : (Nat.toDigits 10 n).length ≤ 20 :=
    (Nat.length_toDigits_le_iff (by omega) (by omega)).mpr (by omega)
  have hlong : ¬ (Nat.toDigits 10 (2 ^ 64 - 1)).length ≤ 19 := by
    rw [Nat.length_toDigits_le_iff (by omega) (by omega)]
    omega
  omega

/-- What stands around the ordinal in a name that has room for the longest one. -/
theorem ordinalName_eq {filename assetId : String}
    (hroom : byteLen (insertAssetIdentityOrdinalSuffix filename assetId (2 ^ 64 - 1)) ≤
      maxFilenameBytes) :
    ∃ pre post, '/' ∉ pre ++ post ∧ ∀ n < 2 ^ 64,
      (ordinalName filename assetId n).toList = pre ++ '-' :: Nat.toDigits 10 n ++ post := by
  obtain ⟨pre, post, -, heq⟩ := insertBeforeExtension_eq filename
  have hname (n : Nat) : (insertAssetIdentityOrdinalSuffix filename assetId n).toList =
      pre ++ '-' :: (assetIdentitySuffix assetId).toList ++ '-' :: Nat.toDigits 10 n ++ post := by
    unfold insertAssetIdentityOrdinalSuffix insertSuffix
    rw [heq, ← toList_toString]
    simp
  refine ⟨cleanChars (pre ++ '-' :: (assetIdentitySuffix assetId).toList), cleanChars post, ?_,
    fun n hn => ?_⟩
  · rw [← cleanChars_append]
    exact slash_not_mem_cleanChars _
  have hne : insertAssetIdentityOrdinalSuffix filename assetId n ≠ "" := by
    intro hempty
    have := hname n
    rw [hempty] at this
    simp at this
  have hlen : bytesOf (cleanChars (insertAssetIdentityOrdinalSuffix filename assetId n).toList) ≤
      maxFilenameBytes := by
    refine (bytesOf_cleanChars_le _).trans (le_trans ?_ hroom)
    rw [byteLen_eq, hname, hname]
    simp only [bytesOf_append, bytesOf_cons]
    have := bytesOf_toDigits_le hn
    omega
  rw [ordinalName, cleanFilename_of_le hne hlen, String.toList_ofList, hname]
  simp only [cleanChars_append, cleanChars_cons, cleanChar_hyphen, cleanChars_toDigits]

theorem map_toLower_toDigits (n : Nat) :
    (Nat.toDigits 10 n).map Char.toLower = Nat.toDigits 10 n := by
  conv_rhs => rw [← List.map_id (Nat.toDigits 10 n)]
  refine List.map_congr_left fun c hc => ?_
  have hrange := toNat_of_isDigit (Nat.isDigit_of_mem_toDigits (by simp) (by simp) hc)
  unfold Char.toLower
  split
  · next h =>
      have hlo : 0x41 ≤ c.val.toNat := UInt32.le_iff_toNat_le.mp h.1
      have : c.val.toNat = c.toNat := rfl
      omega
  · rfl

theorem toDigits_injective {n m : Nat} (h : Nat.toDigits 10 n = Nat.toDigits 10 m) : n = m := by
  have hread := congrArg (fun l => Nat.ofDigitChars 10 l 0) h
  simpa using hread

/-- The key of a path in a directory is the key of what stands before and after an ordinal,
with the ordinal between. -/
theorem normalize_join_injective (host : Host) (dir : Path) {pre post : List Char}
    {a b : String} {n m : Nat} (ha : a.toList = pre ++ '-' :: Nat.toDigits 10 n ++ post)
    (hb : b.toList = pre ++ '-' :: Nat.toDigits 10 m ++ post) (hslash : '/' ∉ pre)
    (h : normalize host (join dir a) = normalize host (join dir b)) : n = m := by
  have hjoin : ∃ front, (join dir a).toList = front ++ a.toList ∧
      (join dir b).toList = front ++ b.toList := by
    have hstart : startsWith a '/' = false ∧ startsWith b '/' = false := by
      unfold startsWith
      rw [ha, hb]
      cases pre with
      | nil => simp
      | cons c pre =>
          rw [List.mem_cons, not_or] at hslash
          simp [Ne.symm hslash.1]
    unfold join
    rw [hstart.1, hstart.2]
    simp only [Bool.false_eq_true, if_false]
    split
    · exact ⟨dir.toList, by simp, by simp⟩
    · exact ⟨dir.toList ++ ['/'], by simp, by simp⟩
  obtain ⟨front, hfa, hfb⟩ := hjoin
  rw [ha] at hfa
  rw [hb] at hfb
  have hlists := congrArg String.toList h
  have hdigits : Nat.toDigits 10 n = Nat.toDigits 10 m := by
    cases hplatform : host.platform with
    | linux => simpa [normalize, hplatform, hfa, hfb] using hlists
    | macos | windows =>
        simpa [normalize, hplatform, asciiLower, hfa, hfb, map_toLower_toDigits] using hlists
  exact toDigits_injective hdigits

/-- The path of a clean name in a directory, by the directory's listing. -/
theorem listedSize_join {listing : List String → Listing} {dir : Path} {name : String}
    (hplain : Plain name) (hup : name ≠ "..") :
    listedSize listing (join dir name) = (listing (components dir)).lookup name := by
  have hcomponents := @components_join dir name hplain
  unfold listedSize
  rw [fileName_of_components hplain hup hcomponents, parent_of_components hplain hcomponents]

theorem plain_of_ordinal {name : String} {pre post : List Char} {n : Nat}
    (hname : name.toList = pre ++ '-' :: Nat.toDigits 10 n ++ post) (hslash : '/' ∉ pre ++ post) :
    Plain name ∧ name ≠ ".." := by
  have hhyphen : '-' ∈ name.toList := by simp [hname]
  refine ⟨⟨?_, ?_, ?_⟩, ?_⟩
  · rw [hname]
    simp only [List.mem_append, List.mem_cons, not_or] at hslash ⊢
    refine ⟨⟨hslash.1, by decide, fun hmem => ?_⟩, hslash.2⟩
    have := toNat_of_isDigit (Nat.isDigit_of_mem_toDigits (by simp) (by simp) hmem)
    simp at this
  all_goals
    rintro rfl
    simp at hhyphen

/-- As many numbers of a set as are sent into a list, if no two are sent to the same. -/
theorem card_filter_mem_le {α : Type} [DecidableEq α] {numbers : Finset Nat} {f : Nat → α}
    (hinj : ∀ i ∈ numbers, ∀ j ∈ numbers, f i = f j → i = j) (targets : List α) :
    (numbers.filter (fun i => f i ∈ targets)).card ≤ targets.length := by
  have hcard : (numbers.filter (fun i => f i ∈ targets)).card ≤ targets.toFinset.card := by
    refine Finset.card_le_card_of_injOn f (fun i hi => ?_) fun i hi j hj h => ?_
    · simpa using (Finset.mem_filter.mp hi).2
    · exact hinj i (Finset.mem_filter.mp hi).1 j (Finset.mem_filter.mp hj).1 h
  exact hcard.trans (List.toFinset_card_le targets)

/-- Two lists that are together shorter than a set of numbers miss one of them. -/
theorem exists_outside {α β : Type} [DecidableEq α] [DecidableEq β] {numbers : Finset Nat}
    {f : Nat → α} {g : Nat → β} (hf : ∀ i ∈ numbers, ∀ j ∈ numbers, f i = f j → i = j)
    (hg : ∀ i ∈ numbers, ∀ j ∈ numbers, g i = g j → i = j) (as : List α) (bs : List β)
    (h : as.length + bs.length < numbers.card) : ∃ i ∈ numbers, f i ∉ as ∧ g i ∉ bs := by
  by_contra hall
  have hcover : numbers ⊆ numbers.filter (fun i => f i ∈ as) ∪
      numbers.filter (fun i => g i ∈ bs) := by
    intro i hi
    rw [Finset.mem_union, Finset.mem_filter, Finset.mem_filter]
    by_cases has : f i ∈ as
    · exact .inl ⟨hi, has⟩
    · refine .inr ⟨hi, ?_⟩
      by_contra hbs
      exact hall ⟨i, hi, has, hbs⟩
  have hcard := (Finset.card_le_card hcover).trans (Finset.card_union_le _ _)
  have has := card_filter_mem_le hf as
  have hbs := card_filter_mem_le hg bs
  omega

/-- **Where the names have room for the longest ordinal, the search ends** at a free path, unless
nearly as many names are taken as there are ordinals. -/
theorem firstAvailableCollisionPath_of_room {filename assetId : String}
    {claimed : Finset String} (hmake : ∀ n,
      makeFilename (.assetIdentityOrdinal n) = insertAssetIdentityOrdinalSuffix filename assetId n)
    (hroom : byteLen (insertAssetIdentityOrdinalSuffix filename assetId (2 ^ 64 - 1)) ≤
      maxFilenameBytes)
    (hclaimed : ∀ key, ctx.claimedPaths key ≠ none → key ∈ claimed)
    (hfew : (listingOf host cache (components (localDownloadDir host ctx.config.directory
      ctx.config.folderStructure ctx.createdLocal ctx.config.albumName))).length +
        claimed.card + 2 < 2 ^ 64 - 2) :
    ∃ fuel path cache', firstAvailableCollisionPath host fuel ctx cache preferred makeFilename =
      some (path, cache') ∧ Free host (listingOf host cache) ctx.claimedPaths path := by
  obtain ⟨pre, post, hslash, hname⟩ := ordinalName_eq hroom
  generalize hdir : localDownloadDir host ctx.config.directory ctx.config.folderStructure
    ctx.createdLocal ctx.config.albumName = dir at hfew
  have hpath (i : Nat) (hi : 2 ≤ i) : pathAt host ctx preferred makeFilename i =
      join dir (ordinalName filename assetId i) := by
    obtain ⟨n, rfl⟩ := Nat.exists_eq_add_of_le' hi
    unfold pathAt kindAt pathOf localDownloadPath ordinalName
    rw [hmake, hdir]
  have hkeys (i : Nat) (hi : i ∈ Finset.Ico 2 (2 ^ 64)) (j : Nat) (hj : j ∈ Finset.Ico 2 (2 ^ 64))
      (h : keyAt host ctx preferred makeFilename i = keyAt host ctx preferred makeFilename j) :
      i = j := by
    rw [Finset.mem_Ico] at hi hj
    unfold keyAt at h
    rw [hpath i hi.1, hpath j hj.1] at h
    rw [List.mem_append, not_or] at hslash
    exact normalize_join_injective host dir (hname i hi.2) (hname j hj.2) hslash.1 h
  have hnames (i : Nat) (hi : i ∈ Finset.Ico 2 (2 ^ 64)) (j : Nat)
      (hj : j ∈ Finset.Ico 2 (2 ^ 64))
      (h : ordinalName filename assetId i = ordinalName filename assetId j) : i = j := by
    refine hkeys i hi j hj ?_
    rw [Finset.mem_Ico] at hi hj
    rw [keyAt, keyAt, hpath i hi.1, hpath j hj.1, h]
  -- the first two names may have the key of an ordinal
  obtain ⟨i, hi, hunlisted, hnew⟩ := exists_outside hnames hkeys
    ((listingOf host cache (components dir)).map Prod.fst)
    (keyAt host ctx preferred makeFilename 0 :: keyAt host ctx preferred makeFilename 1 ::
      claimed.toList) (by
        rw [List.length_map, List.length_cons, List.length_cons, Finset.length_toList,
          Nat.card_Ico]
        omega)
  rw [List.mem_cons, List.mem_cons, not_or, not_or] at hnew
  have hrange := Finset.mem_Ico.mp hi
  suffices hfree : FreeAt host ctx (listingOf host cache) preferred makeFilename i by
    obtain ⟨fuel, path, cache', hrun⟩ := firstAvailableCollisionPath_of_freeAt hrange.2 hfree
    obtain ⟨j, -, rfl, hfound⟩ := firstAvailableCollisionPath_freeAt hrun
    exact ⟨fuel, _, cache', hrun, hfound.free⟩
  refine ⟨⟨?_, ?_⟩, fun j hj h => ?_⟩
  · obtain ⟨hp, hup⟩ := plain_of_ordinal (hname i hrange.2) hslash
    rw [hpath i hrange.1, listedSize_join hp hup, List.lookup_eq_none_iff]
    intro entry hentry
    rw [bne_iff_ne]
    exact fun h => hunlisted (List.mem_map.mpr ⟨entry, hentry, h.symm⟩)
  · by_contra hclaim
    exact hnew.2.2 (Finset.mem_toList.mpr (hclaimed _ hclaim))
  · by_cases hj₂ : 2 ≤ j
    · have := hkeys j (Finset.mem_Ico.mpr ⟨hj₂, by omega⟩) i hi h
      omega
    · obtain rfl | rfl : j = 0 ∨ j = 1 := by omega
      · exact hnew.1 h.symm
      · exact hnew.2.1 h.symm

/-! ## names without room -/

/-- **Where what stands before the extension fills the room, all the names are one path, and
the search ends exactly if it is free.** -/
theorem firstAvailableCollisionPath_of_full {filename : String} {stem ext : List Char}
    (hmake : ∀ kind, ∃ suffix, makeFilename kind = insertSuffix filename suffix)
    (hname : filename.toList = stem ++ '.' :: ext) (hdot : '.' ∉ ext)
    (hext : 1 + bytesOf (cleanChars ext) < maxFilenameBytes)
    (hfull : roomBefore ext ≤ bytesOf (cleanChars stem)) :
    (∃ fuel path cache',
      firstAvailableCollisionPath host fuel ctx cache preferred makeFilename =
        some (path, cache')) ↔
      Free host (listingOf host cache) ctx.claimedPaths
        (pathOf host ctx.config ctx.createdLocal (makeFilename preferred)) := by
  have hclean (kind : CollisionFilenameKind) : cleanFilename (makeFilename kind) =
      String.ofList (takeBytes (roomBefore ext) (cleanChars stem) ++ '.' :: cleanChars ext) := by
    obtain ⟨suffix, hsuffix⟩ := hmake kind
    rw [hsuffix]
    refine @cleanFilename_of_full _ _ ('-' :: suffix.toList) _ ?_ hdot hext hfull (by simp)
    rw [insertSuffix, insertBeforeExtension_of_dot hname hdot]
    simp
  have hpath (i : Nat) : pathAt host ctx preferred makeFilename i =
      pathOf host ctx.config ctx.createdLocal (makeFilename preferred) := by
    unfold pathAt pathOf localDownloadPath
    rw [hclean, hclean]
  constructor
  · rintro ⟨fuel, path, cache', hrun⟩
    obtain ⟨i, -, -, hfree⟩ := firstAvailableCollisionPath_freeAt hrun
    rw [← hpath i]
    exact hfree.free
  · intro hfree
    refine firstAvailableCollisionPath_of_freeAt (i := 0) (by omega) ⟨?_, by omega⟩
    rw [hpath 0]
    exact hfree

theorem exists_insertSuffix (filename assetId : String) (size : Nat)
    (kind : CollisionFilenameKind) :
    ∃ suffix, sizeOrIdentityCollisionFilename filename size assetId kind =
      insertSuffix filename suffix := by
  cases kind with
  | default => exact ⟨toString size, rfl⟩
  | assetIdentity => exact ⟨assetIdentitySuffix assetId, rfl⟩
  | assetIdentityOrdinal n => exact ⟨assetIdentitySuffix assetId ++ "-" ++ toString n, rfl⟩

/-- A name with this stem. -/
def jpgName (stem : List Char) : String := String.ofList (stem ++ ['.', 'J', 'P', 'G'])

/-- A photo of that name, in `/photos` already. -/
def claimedJpg (stem : List Char) : ClaimedPaths := fun key =>
  if key = "/photos/" ++ jpgName stem then some 5 else none

theorem pathOf_suffixed_jpgName {stem : List Char} (hclean : cleanChars stem = stem)
    (hbytes : bytesOf stem = 251) (suffix : String) :
    pathOf batchHost batchConfig ⟨0, 0⟩ (insertSuffix (jpgName stem) suffix) =
      "/photos/" ++ jpgName stem := by
  have hroom : roomBefore ['J', 'P', 'G'] = 251 := by decide
  have hname : (jpgName stem).toList = stem ++ '.' :: ['J', 'P', 'G'] := String.toList_ofList
  have hfile : cleanFilename (insertSuffix (jpgName stem) suffix) = jpgName stem := by
    have hsuffixed : (insertSuffix (jpgName stem) suffix).toList =
        stem ++ '-' :: suffix.toList ++ '.' :: ['J', 'P', 'G'] := by
      rw [insertSuffix, insertBeforeExtension_of_dot hname (by decide)]
      simp
    rw [cleanFilename_of_full hsuffixed (by decide) (by decide) (by rw [hroom, hclean, hbytes])
      (by simp), hclean, takeBytes_of_le (by rw [hroom, hbytes])]
    rfl
  have hslash : startsWith (jpgName stem) '/' = false := by
    rw [startsWith, hname, beq_eq_false_iff_ne]
    cases stem with
    | nil => simp
    | cons c stem =>
        rw [cleanChars_cons, List.cons.injEq] at hclean
        simpa [hclean.1] using hclean.1 ▸ cleanChar_ne_slash c
  have hjoin : join "/photos" (jpgName stem) = "/photos/" ++ jpgName stem := by
    unfold join
    rw [hslash]
    rfl
  rw [← hjoin]
  unfold pathOf localDownloadPath
  rw [hfile]
  rfl

/-- The search for another name of `a.JPG` ends. -/
theorem firstAvailableCollisionPath_of_room_short :
    ∃ fuel path cache', firstAvailableCollisionPath batchHost fuel
      ⟨batchConfig, ⟨0, 0⟩, claimedJpg ['a']⟩ .new .default
      (sizeOrIdentityCollisionFilename (jpgName ['a']) 7 "A") = some (path, cache') ∧
      Free batchHost (listingOf batchHost .new) (claimedJpg ['a']) path :=
  firstAvailableCollisionPath_of_room (fun _ => rfl) (by decide +kernel)
    (fun key h => Finset.mem_singleton.mpr (not_imp_comm.mp (if_neg ·) h)) (by decide +kernel)

/-- The search for another name of a photo whose name has 255 bytes does not end. -/
theorem longName_search_never_ends :
    ¬ ∃ fuel path cache', firstAvailableCollisionPath batchHost fuel
      ⟨batchConfig, ⟨0, 0⟩, claimedJpg (List.replicate 251 'a')⟩ .new .default
      (sizeOrIdentityCollisionFilename (jpgName (List.replicate 251 'a')) 7 "A") =
        some (path, cache') ∧
      Free batchHost (listingOf batchHost .new) (claimedJpg (List.replicate 251 'a')) path := by
  have hclean : cleanChars (List.replicate 251 'a') = List.replicate 251 'a' := by
    rw [cleanChars, List.map_replicate]
    congr 1
  have hbytes : bytesOf (List.replicate 251 'a') = 251 := by
    rw [bytesOf_of_all_one fun c hc => List.eq_of_mem_replicate hc ▸ rfl, List.length_replicate]
  generalize List.replicate 251 'a' = stem at hclean hbytes
  rintro ⟨fuel, path, cache', hrun, -⟩
  have hfree := (firstAvailableCollisionPath_of_full (exists_insertSuffix (jpgName stem) "A" 7)
    String.toList_ofList (by decide) (by decide)
    (by rw [hclean, hbytes]; decide)).mp ⟨fuel, path, cache', hrun⟩
  obtain ⟨suffix, hsuffix⟩ := exists_insertSuffix (jpgName stem) "A" 7 .default
  have hclaim := hfree.unclaimed
  rw [hsuffix, pathOf_suffixed_jpgName hclean hbytes] at hclaim
  simp [claimedJpg, normalize, batchHost, sampleHost] at hclaim

end Kei.Download
