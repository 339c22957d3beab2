import Kei.Download.Planner
import Kei.Lib.Delimited

/-!
# Kei.Download.ConfigHash

What the hash of a configuration says about the assets that are eligible.

The hash decides whether stored zone tokens stay valid.  The settings that
select assets and versions are written one after the other, and can be read off
what is written.  An instant cutoff is written by its day, so two cutoffs on one
day are the same to the hash, though not to the assets of that day.
-/

namespace Kei.Download

/-- The settings of a run, with those that its download configurations take over. -/
structure AppConfig extends DownloadConfig where
  media : MediaSelection
  skipCreatedBefore : Option CreatedDateFilter
  skipCreatedAfter : Option CreatedDateFilter
  unfiled : Bool

/-- The configuration of a pass that excludes some assets. -/
def AppConfig.toPassConfig (config : AppConfig) (excludeAssetIds : List String) : PassConfig :=
  { config with excludeAssetIds := excludeAssetIds }

/-! ## the versions -/

abbrev Selected := AssetVersion × AssetVersionSize

/-- A further version of an asset, unless its URL was seen. -/
def selectExtra (ctx : DerivationContext) (seenUrls : List String) (wanted : Bool)
    (key : AssetVersionSize) : Option Selected :=
  if wanted then
    match ctx.versions.get key with
    | none => none
    | some version => if urlSeen version seenUrls then none else some (version, key)
  else none

def selectEditedExtra (config : DownloadConfig) (ctx : DerivationContext)
    (seenUrls : List String) : Option Selected :=
  selectExtra ctx seenUrls config.edited .adjusted

def selectAlternativeExtra (asset : PhotoAsset) (config : DownloadConfig)
    (ctx : DerivationContext) (seenUrls : List String) : Option Selected :=
  selectExtra ctx seenUrls (config.alternative && !asset.isLivePhoto) .alternative

def selectLiveEditedExtra (asset : PhotoAsset) (config : DownloadConfig)
    (ctx : DerivationContext) (seenUrls : List String) : Option Selected :=
  selectExtra ctx seenUrls
    (config.edited && asset.isLivePhoto && asset.itemType = some .image) .liveAdjusted

/-- Add a version that is selected, and the URL it has. -/
def pushSelected (acc : List (VersionSizeKey × String) × List String)
    (select : List String → Option Selected) : List (VersionSizeKey × String) × List String :=
  match select acc.2 with
  | none => acc
  | some (version, size) => (acc.1 ++ [(.from size, version.checksum)], acc.2 ++ [version.url])

/-- The versions that would be downloaded, with their checksums. -/
def extractSkipCandidates (host : Host) (asset : PhotoAsset) (config : DownloadConfig) :
    List (VersionSizeKey × String) :=
  if asset.hasValidId then
    let ctx := DerivationContext.build host asset config
    let acc := pushSelected ([], []) (fun _ => selectPrimary asset config ctx)
    let acc := pushSelected acc (selectEditedExtra config ctx)
    let acc := pushSelected acc (selectAlternativeExtra asset config ctx)
    let acc := pushSelected acc (selectLiveEditedExtra asset config ctx)
    (pushSelected acc (selectMovCompanion asset config ctx)).1
  else []

/-! ### they are the versions of the expected paths -/

/-- The version of a derived path, with its checksum. -/
def DerivedPath.candidate (d : DerivedPath) : VersionSizeKey × String := (d.versionSize, d.checksum)

/-- The candidates of the derived paths so far, and the URLs that were seen. -/
def Matches (derived : List DerivedPath × List String)
    (selected : List (VersionSizeKey × String) × List String) : Prop :=
  derived.1.map DerivedPath.candidate = selected.1 ∧ derived.2 = selected.2

theorem Matches.push {derived : List DerivedPath × List String}
    {selected : List (VersionSizeKey × String) × List String} (h : Matches derived selected)
    {derive : List String → Option DerivedPath} {select : List String → Option Selected}
    {path : Selected → DerivedPath} (hderive : ∀ seen, derive seen = (select seen).map path)
    (hpath : ∀ s, (path s).candidate = (.from s.2, s.1.checksum) ∧ (path s).url = s.1.url) :
    Matches (pushDerived derived derive) (pushSelected selected select) := by
  obtain ⟨hcandidates, hseen⟩ := h
  rw [pushDerived, pushSelected, hderive, hseen]
  cases hselect : select selected.2 with
  | none => exact ⟨hcandidates, hseen⟩
  | some s =>
      obtain ⟨hcandidate, hurl⟩ := hpath s
      simp [Matches, hcandidates, hcandidate, hurl]

theorem deriveExtra_eq (host : Host) (asset : PhotoAsset) (config : DownloadConfig)
    (ctx : DerivationContext) (wanted : Bool) (key : AssetVersionSize)
    (suffix : AssetVersion → String) (checkAmpm : Bool) (seenUrls : List String) :
    deriveExtra host asset config ctx seenUrls wanted key suffix checkAmpm =
      (selectExtra ctx seenUrls wanted key).map (fun s =>
        deriveSuffixedExtra host asset config ctx s.1 s.2 (suffix s.1) checkAmpm) := by
  rw [deriveExtra, selectExtra]
  cases wanted with
  | false => rfl
  | true =>
      cases ctx.versions.get key with
      | none => rfl
      | some version => cases hseen : urlSeen version seenUrls <;> simp [hseen]

/-- The movie is looked for among all its versions, and then left out when it was seen. -/
theorem selectMov_seen (asset : PhotoAsset) (config : DownloadConfig) (ctx : DerivationContext)
    (seenUrls : List String) :
    selectMovCompanion asset config ctx seenUrls =
      (selectMovCompanion asset config ctx []).filter (fun s => !urlSeen s.1 seenUrls) := by
  rw [selectMovCompanion, selectMovCompanion]
  split
  · simp [Option.filter_filter, urlSeen]
  · rfl

theorem Matches.mov {derived : List DerivedPath × List String}
    {selected : List (VersionSizeKey × String) × List String} (h : Matches derived selected)
    (host : Host) (asset : PhotoAsset) (config : DownloadConfig) (ctx : DerivationContext)
    (filename : Option String) :
    (match deriveMovCompanion host asset config ctx filename with
      | none => derived.1
      | some mov =>
          if derived.2.any (fun seen => seen = mov.url) then derived.1
          else derived.1 ++ [mov]).map DerivedPath.candidate =
      (pushSelected selected (selectMovCompanion asset config ctx)).1 := by
  obtain ⟨hcandidates, hseen⟩ := h
  rw [pushSelected, selectMov_seen, deriveMovCompanion]
  cases hselect : selectMovCompanion asset config ctx [] with
  | none => simpa using hcandidates
  | some s =>
      cases hurl : urlSeen s.1 selected.2 with
      | true =>
          have hany : derived.2.any (fun seen => seen = s.1.url) = true := by
            rw [hseen]
            exact hurl
          have hfilter : (some s).filter (fun s => !urlSeen s.1 selected.2) = none := by
            simp [Option.filter, hurl]
          simp [hfilter, hany, hcandidates]
      | false =>
          have hany : derived.2.any (fun seen => seen = s.1.url) = false := by
            rw [hseen]
            exact hurl
          have hfilter : (some s).filter (fun s => !urlSeen s.1 selected.2) = some s := by
            simp [Option.filter, hurl]
          simp [hfilter, hany, hcandidates, DerivedPath.candidate]

/-- The skip candidates are the versions of the expected paths. -/
theorem expectedPaths_candidates (host : Host) (asset : PhotoAsset) (config : DownloadConfig) :
    (deriveExpectedPaths host asset config).map DerivedPath.candidate =
      extractSkipCandidates host asset config := by
  rw [deriveExpectedPaths, extractSkipCandidates]
  by_cases hid : asset.hasValidId = true
  · rw [if_pos hid, if_pos hid]
    generalize DerivationContext.build host asset config = ctx
    have hprimary : Matches
        (pushDerived ([], []) (fun _ => derivePrimary host asset config ctx))
        (pushSelected ([], []) (fun _ => selectPrimary asset config ctx)) :=
      Matches.push ⟨rfl, rfl⟩ (fun _ => rfl) (fun _ => ⟨rfl, rfl⟩)
    have hedited := hprimary.push
      (deriveExtra_eq host asset config ctx config.edited .adjusted (fun _ => "_edited") true)
      (fun _ => ⟨rfl, rfl⟩)
    have halternative := hedited.push
      (deriveExtra_eq host asset config ctx (config.alternative && !asset.isLivePhoto) .alternative
        (fun version => if Str.contains version.assetType "raw" then "_RAW" else "_alt") true)
      (fun _ => ⟨rfl, rfl⟩)
    have hextras := halternative.push
      (deriveExtra_eq host asset config ctx
        (config.edited && asset.isLivePhoto && asset.itemType = some .image) .liveAdjusted
        (fun _ => "_edited") false)
      (fun _ => ⟨rfl, rfl⟩)
    exact hextras.mov host asset config ctx _
  · rw [if_neg hid, if_neg hid]
    rfl

/-! ## what is hashed -/

/-- The bytes of a text. -/
def asBytes (text : String) : List UInt8 := text.toByteArray.data.toList

/-- The UTC day of an instant. -/
def utcDay (millis : Int) : Int := millis / 86400000

/-- The year that begins in March, and the day of that year. -/
def marchYear (day : Int) : Int × Int :=
  -- from the first of March of the year 0, in cycles of 400, 100 and 4 years
  let fromMarch := day + 719468
  let inEra := fromMarch % 146097
  let century := min (inEra / 36524) 3
  let inCentury := inEra - 36524 * century
  let inCycle := inCentury % 1461
  let year := min (inCycle / 365) 3
  (400 * (fromMarch / 146097) + 100 * century + 4 * (inCentury / 1461) + year,
    inCycle - 365 * year)

/-- Year, month and day of the month. -/
def civil (day : Int) : Int × Nat × Nat :=
  let (year, dayOfYear) := marchYear day
  let month := (5 * dayOfYear + 2) / 153
  (if month < 10 then year else year + 1, (if month < 10 then month + 3 else month - 9).toNat,
    (dayOfYear - (153 * month + 2) / 5 + 1).toNat)

/-- Two digits. -/
def writeHundreds (n : Nat) : List Char := [(n / 10).digitChar, (n % 10).digitChar]

/-- The digits of a number, at least so many. -/
def padded (width n : Nat) : List Char :=
  List.replicate (width - (Nat.toDigits 10 n).length) '0' ++ Nat.toDigits 10 n

/-- A year is written with its sign unless it has four digits. -/
def writeYear (year : Int) : List Char :=
  if 0 ≤ year ∧ year ≤ 9999 then
    writeHundreds (year.toNat / 100) ++ writeHundreds (year.toNat % 100)
  else (if year < 0 then '-' else '+') :: padded 4 year.natAbs

/-- A day as "YYYY-MM-DD". -/
def dateText (day : Int) : String :=
  let (year, month, dayOfMonth) := civil day
  String.ofList (writeYear year ++
    ('-' :: writeHundreds month ++ '-' :: writeHundreds dayOfMonth))

example : dateText 19782 = "2024-02-29" := by rfl

def PhotoResolution.toU8 : PhotoResolution → UInt8
  | .none => 0
  | .original => 1
  | .medium => 2
  | .thumb => 3

def AssetVersionSize.toU8 : AssetVersionSize → UInt8
  | .original => 0
  | .alternative => 1
  | .medium => 2
  | .thumb => 3
  | .adjusted => 4
  | .liveOriginal => 5
  | .liveMedium => 6
  | .liveThumb => 7
  | .liveAdjusted => 8

def RawPolicy.toU8 : RawPolicy → UInt8
  | .asIs => 0
  | .preferRaw => 1
  | .preferJpeg => 2

def LivePhotoMode.toU8 : LivePhotoMode → UInt8
  | .both => 0
  | .imageOnly => 1
  | .videoOnly => 2
  | .skip => 3

def hashOptionalDate : Option Int → List UInt8
  | none => [0]
  | some day => 1 :: asBytes (dateText day)

def hashOptionalCreatedDateFilter : Option CreatedDateFilter → List UInt8
  | none => hashOptionalDate none
  | some (.instant boundary) => hashOptionalDate (some (utcDay boundary))
  | some (.captureDate boundary) => 2 :: asBytes (dateText boundary)

def hashBytes (bytes : List UInt8) : List UInt8 := bytes ++ [0]

def enumerationSafetyHashVersion : UInt8 := 2

def sortedExcludes (config : AppConfig) : List String :=
  config.filenameExclude.mergeSort (fun a b => a ≤ b)

/-- The bytes that `compute_config_hash` feeds the hasher. -/
def configHashInput (config : AppConfig) : List UInt8 :=
  [enumerationSafetyHashVersion] ++ [config.resolution.toU8] ++ [config.liveResolution.toU8] ++
    [config.edited.toUInt8] ++ [config.alternative.toUInt8] ++ [config.rawPolicy.toU8] ++
    hashOptionalCreatedDateFilter config.skipCreatedBefore ++
    hashOptionalCreatedDateFilter config.skipCreatedAfter ++
    [config.forceResolution.toUInt8] ++ [config.media.photos.toUInt8] ++
    [config.media.videos.toUInt8] ++ [config.media.livePhotos.toUInt8] ++
    [config.livePhotoMode.toU8] ++
    (sortedExcludes config).flatMap (fun pattern => hashBytes (asBytes pattern)) ++
    asBytes "unfiled:" ++ [config.unfiled.toUInt8]

/-! ## dates are read back -/

theorem asBytes_injective {s t : String} (h : asBytes s = asBytes t) : s = t := by
  rw [← String.toByteArray_inj]
  exact ByteArray.ext (Array.toList_inj.mp h)

theorem asBytes_ofList (chars : List Char) :
    asBytes (String.ofList chars) = chars.flatMap String.utf8EncodeChar := by
  simp [asBytes, List.utf8Encode]

theorem writeHundreds_injective {m n : Nat} (hm : m < 100) (hn : n < 100)
    (h : writeHundreds m = writeHundreds n) : m = n := by
  have htens := (List.cons.inj h).1
  have hones := (List.cons.inj (List.cons.inj h).2).1
  have hdigit : ∀ a < 10, ∀ b < 10, Nat.digitChar a = Nat.digitChar b → a = b := by decide
  have h1 := hdigit (m / 10) (by omega) (n / 10) (by omega) htens
  have h2 := hdigit (m % 10) (by omega) (n % 10) (by omega) hones
  omega

theorem padded_injective {width m n : Nat} (h : padded width m = padded width n) : m = n := by
  have hvalue (k : Nat) : Nat.ofDigitChars 10 (padded width k) 0 = k := by
    rw [padded, Nat.ofDigitChars_append, Nat.ofDigitChars_replicate_zero, Nat.mul_zero,
      Nat.ofDigitChars_ten_toDigits]
  rw [← hvalue m, h, hvalue n]

/-- The symbols of a date. -/
def isDateChar (c : Char) : Bool := c.isDigit || c = '-' || c = '+'

theorem writeHundreds_chars {n : Nat} (hn : n < 100) :
    ∀ c ∈ writeHundreds n, isDateChar c = true := by
  have hdigit : ∀ a < 10, isDateChar (Nat.digitChar a) = true := by decide
  simp only [writeHundreds, List.mem_cons, List.not_mem_nil, or_false, forall_eq_or_imp,
    forall_eq]
  exact ⟨hdigit _ (by omega), hdigit _ (by omega)⟩

theorem padded_chars (width n : Nat) : ∀ c ∈ padded width n, c.isDigit = true := by
  intro c hc
  rw [padded, List.mem_append] at hc
  cases hc with
  | inl hzero =>
      rw [(List.mem_replicate.mp hzero).2]
      rfl
  | inr hdigits => exact Nat.isDigit_of_mem_toDigits (by omega) (by omega) hdigits

/-- The sign of a year. -/
def yearSign (year : Int) : Char := if year < 0 then '-' else '+'

theorem sign_ne_digits (year : Int) {n : Nat} (hn : n < 10000) (chars : List Char) :
    yearSign year :: chars ≠ writeHundreds (n / 100) ++ writeHundreds (n % 100) := by
  intro h
  have hhead : yearSign year = (n / 100 / 10).digitChar := (List.cons.inj h).1
  have hdigit : ∀ a < 10, Nat.digitChar a ≠ '-' ∧ Nat.digitChar a ≠ '+' := by decide
  obtain ⟨hminus, hplus⟩ := hdigit (n / 100 / 10) (by omega)
  rw [yearSign] at hhead
  split at hhead
  · exact hminus hhead.symm
  · exact hplus hhead.symm

theorem writeYear_injective {y z : Int} (h : writeYear y = writeYear z) : y = z := by
  have hlong (x : Int) (hx : ¬ (0 ≤ x ∧ x ≤ 9999)) :
      writeYear x = yearSign x :: padded 4 x.natAbs := if_neg hx
  have hshort (x : Int) (hx : 0 ≤ x ∧ x ≤ 9999) :
      writeYear x = writeHundreds (x.toNat / 100) ++ writeHundreds (x.toNat % 100) := if_pos hx
  by_cases hy : 0 ≤ y ∧ y ≤ 9999
  · rw [hshort y hy] at h
    by_cases hz : 0 ≤ z ∧ z ≤ 9999
    · rw [hshort z hz] at h
      have hsame := List.append_inj h (by simp [writeHundreds])
      have h1 := writeHundreds_injective (by omega) (by omega) hsame.1
      have h2 := writeHundreds_injective (by omega) (by omega) hsame.2
      omega
    · rw [hlong z hz] at h
      exact absurd h.symm (sign_ne_digits z (by omega) _)
  · rw [hlong y hy] at h
    by_cases hz : 0 ≤ z ∧ z ≤ 9999
    · rw [hshort z hz] at h
      exact absurd h (sign_ne_digits y (by omega) _)
    · rw [hlong z hz] at h
      have habs := padded_injective (List.cons.inj h).2
      have hsign : yearSign y = yearSign z := (List.cons.inj h).1
      have hneg : y < 0 ↔ z < 0 := by
        unfold yearSign at hsign
        by_cases hy : y < 0 <;> by_cases hz : z < 0 <;> simp [hy, hz] at hsign ⊢
      omega

theorem marchYear_range (day : Int) : 0 ≤ (marchYear day).2 ∧ (marchYear day).2 ≤ 365 := by
  simp only [marchYear]
  omega

/-- A year is some whole cycles of 400, 100 and 4 years, and less than one of 4. -/
theorem marchYear_eq (day : Int) : ∃ era century cycle year dayOfYear : Int,
    marchYear day = (400 * era + 100 * century + 4 * cycle + year, dayOfYear) ∧
      day + 719468 = 146097 * era + 36524 * century + 1461 * cycle + 365 * year + dayOfYear ∧
        (0 ≤ century ∧ century ≤ 3) ∧ (0 ≤ cycle ∧ cycle ≤ 24) ∧ 0 ≤ year ∧ year ≤ 3 := by
  refine ⟨_, _, _, _, _, rfl, ?_, ?_, ?_, ?_⟩ <;> omega

theorem marchYear_injective {a b : Int} (h : marchYear a = marchYear b) : a = b := by
  obtain ⟨era, century, cycle, year, dayOfYear, ha, hday, hcentury, hcycle, hyear⟩ :=
    marchYear_eq a
  obtain ⟨era', century', cycle', year', dayOfYear', hb, hday', hcentury', hcycle', hyear'⟩ :=
    marchYear_eq b
  rw [ha, hb, Prod.mk.injEq] at h
  -- the parts of the year, from the longest cycle on
  have hera : era = era' := by omega
  have hcenturies : century = century' := by omega
  omega

theorem civil_injective {a b : Int} (h : civil a = civil b) : a = b := by
  have ha := marchYear_range a
  have hb := marchYear_range b
  apply marchYear_injective
  unfold civil at h
  generalize marchYear a = x at h ha ⊢
  generalize marchYear b = y at h hb ⊢
  obtain ⟨year, dayOfYear⟩ := x
  obtain ⟨year', dayOfYear'⟩ := y
  simp only [Prod.mk.injEq] at h ha hb ⊢
  split at h <;> split at h <;> omega

theorem civil_range (day : Int) : (civil day).2.1 < 100 ∧ (civil day).2.2 < 100 := by
  have hrange := marchYear_range day
  unfold civil
  generalize marchYear day = x at hrange ⊢
  obtain ⟨year, dayOfYear⟩ := x
  simp only at hrange ⊢
  split <;> omega

theorem dateText_injective {a b : Int} (h : dateText a = dateText b) : a = b := by
  have hchars := String.ofList_injective h
  have hsplit := List.append_inj' hchars (by simp [writeHundreds])
  have hrest := List.append_inj hsplit.2 (by simp [writeHundreds])
  obtain ⟨ham, had⟩ := civil_range a
  obtain ⟨hbm, hbd⟩ := civil_range b
  have hyear := writeYear_injective hsplit.1
  have hmonth := writeHundreds_injective ham hbm (List.cons.inj hrest.1).2
  have hday := writeHundreds_injective had hbd (List.cons.inj hrest.2).2
  exact civil_injective (Prod.ext hyear (Prod.ext hmonth hday))

theorem writeYear_chars (year : Int) : ∀ c ∈ writeYear year, isDateChar c = true := by
  unfold writeYear
  intro c hc
  by_cases hyear : 0 ≤ year ∧ year ≤ 9999
  · rw [if_pos hyear, List.mem_append] at hc
    cases hc with
    | inl h => exact writeHundreds_chars (by omega) c h
    | inr h => exact writeHundreds_chars (by omega) c h
  · rw [if_neg hyear, List.mem_cons] at hc
    cases hc with
    | inl h =>
        rw [h]
        by_cases hneg : year < 0 <;> simp [hneg, isDateChar]
    | inr h => simp [isDateChar, padded_chars 4 _ c h]

theorem date_bytes (day : Int) : ∀ b ∈ asBytes (dateText day), 2 < b := by
  have hchars : ∀ c ∈ writeYear (civil day).1 ++
      ('-' :: writeHundreds (civil day).2.1 ++ '-' :: writeHundreds (civil day).2.2),
      isDateChar c = true := by
    obtain ⟨hm, hd⟩ := civil_range day
    have hyear := writeYear_chars (civil day).1
    have hmonth := writeHundreds_chars hm
    have hday := writeHundreds_chars hd
    have hdash : isDateChar '-' = true := by decide
    grind
  have hbyte : ∀ c, isDateChar c = true → ∀ b ∈ String.utf8EncodeChar c, 2 < b := by
    intro c hc b hb
    have hrange : 43 ≤ c.val.toNat ∧ c.val.toNat ≤ 57 := by
      simp only [isDateChar, Bool.or_eq_true, decide_eq_true_eq, Char.isDigit, Bool.and_eq_true,
        UInt32.le_iff_toNat_le] at hc
      rcases hc with (hdigit | rfl) | rfl
      · have h0 : 48 ≤ c.val.toNat := hdigit.1
        have h9 : c.val.toNat ≤ 57 := hdigit.2
        omega
      · decide
      · decide
    have hsize : c.utf8Size = 1 := by
      have hsmall : c.val ≤ 0x7f := by
        rw [UInt32.le_iff_toNat_le]
        exact Nat.le_trans hrange.2 (by decide)
      simp [Char.utf8Size, hsmall]
    rw [String.utf8EncodeChar_eq_singleton hsize, List.mem_singleton] at hb
    rw [hb, UInt8.lt_iff_toNat_lt, UInt32.toNat_toUInt8]
    have htwo : (2 : UInt8).toNat = 2 := rfl
    omega
  intro b hb
  rw [dateText, asBytes_ofList, List.mem_flatMap] at hb
  obtain ⟨c, hc, hmem⟩ := hb
  exact hbyte c (hchars c hc) b hmem

/-! ## settings are read back -/

open Delimited

/-- What a cutoff is written as: a tag, and its day. -/
def dateTag : Option CreatedDateFilter → UInt8
  | none => 0
  | some (.instant _) => 1
  | some (.captureDate _) => 2

def dateBody : Option CreatedDateFilter → List UInt8
  | none => []
  | some (.instant boundary) => asBytes (dateText (utcDay boundary))
  | some (.captureDate boundary) => asBytes (dateText boundary)

theorem hashDate_eq (f : Option CreatedDateFilter) :
    hashOptionalCreatedDateFilter f = dateTag f :: dateBody f := by
  rcases f with - | ⟨boundary | boundary⟩ <;> rfl

/-- After a cutoff comes a tag or a flag. -/
def StartsSmall (rest : List UInt8) : Prop := ∀ b ∈ rest.head?, decide (2 < b) = false

theorem hashDate_cuts : Cuts hashOptionalCreatedDateFilter StartsSmall := by
  have hbody : Cuts dateBody StartsSmall := by
    refine cuts_of_symbols (fun f b hb => ?_)
    rcases f with - | ⟨boundary | boundary⟩
    · simp [dateBody] at hb
    · simpa using date_bytes _ b hb
    · simpa using date_bytes _ b hb
  intro f g xs ys hxs hys h
  rw [hashDate_eq, hashDate_eq] at h ⊢
  exact hbody.tagged dateTag hxs hys h

/-- The cutoffs are the same, or two instants on one day. -/
def SameDay : Option CreatedDateFilter → Option CreatedDateFilter → Prop
  | some (.instant a), some (.instant b) => utcDay a = utcDay b
  | f, g => f = g

theorem sameDay_of_hash {f g : Option CreatedDateFilter}
    (h : hashOptionalCreatedDateFilter f = hashOptionalCreatedDateFilter g) : SameDay f g := by
  rw [hashDate_eq, hashDate_eq, List.cons.injEq] at h
  rcases f with - | ⟨a | a⟩ <;> rcases g with - | ⟨b | b⟩ <;> simp [dateTag] at h
  · rfl
  · exact dateText_injective (asBytes_injective h)
  · have hdate : a = b := dateText_injective (asBytes_injective h)
    rw [hdate]
    rfl

/-- The settings that the hash reads, apart from the exclude patterns. -/
structure SameSettings (c d : AppConfig) : Prop where
  resolution : c.resolution = d.resolution
  liveResolution : c.liveResolution = d.liveResolution
  edited : c.edited = d.edited
  alternative : c.alternative = d.alternative
  rawPolicy : c.rawPolicy = d.rawPolicy
  before : SameDay c.skipCreatedBefore d.skipCreatedBefore
  after : SameDay c.skipCreatedAfter d.skipCreatedAfter
  forceResolution : c.forceResolution = d.forceResolution
  media : c.media = d.media
  livePhotoMode : c.livePhotoMode = d.livePhotoMode

/-- No exclude pattern has a NUL in it. -/
def AppConfig.NulFree (config : AppConfig) : Prop :=
  ∀ pattern ∈ config.filenameExclude, 0 ∉ asBytes pattern

theorem PhotoResolution.toU8_injective {a b : PhotoResolution} (h : a.toU8 = b.toU8) : a = b := by
  cases a <;> cases b <;> first | rfl | exact absurd h (by decide)

theorem AssetVersionSize.toU8_injective {a b : AssetVersionSize} (h : a.toU8 = b.toU8) :
    a = b := by
  cases a <;> cases b <;> first | rfl | exact absurd h (by decide)

theorem RawPolicy.toU8_injective {a b : RawPolicy} (h : a.toU8 = b.toU8) : a = b := by
  cases a <;> cases b <;> first | rfl | exact absurd h (by decide)

theorem LivePhotoMode.toU8_injective {a b : LivePhotoMode} (h : a.toU8 = b.toU8) : a = b := by
  cases a <;> cases b <;> first | rfl | exact absurd h (by decide)

theorem toUInt8_injective {a b : Bool} (h : a.toUInt8 = b.toUInt8) : a = b := by
  cases a <;> cases b <;> first | rfl | exact absurd h (by decide)

theorem flag_small (b : Bool) : b.toUInt8 ≤ 2 := by cases b <;> decide

theorem tag_small (f : Option CreatedDateFilter) : dateTag f ≤ 2 := by
  rcases f with - | ⟨boundary | boundary⟩ <;> simp [dateTag]

/-- The patterns, as they are written. -/
def excludeBytes (config : AppConfig) : List UInt8 :=
  terminated 0 ((sortedExcludes config).map asBytes)

/-- The flags between the cutoffs and the patterns. -/
def flagBytes (config : AppConfig) : List UInt8 :=
  [config.forceResolution.toUInt8, config.media.photos.toUInt8, config.media.videos.toUInt8,
    config.media.livePhotos.toUInt8, config.livePhotoMode.toU8]

/-- The settings before the cutoffs. -/
def headBytes (config : AppConfig) : List UInt8 :=
  [enumerationSafetyHashVersion, config.resolution.toU8, config.liveResolution.toU8,
    config.edited.toUInt8, config.alternative.toUInt8, config.rawPolicy.toU8]

theorem configHashInput_eq (config : AppConfig) :
    configHashInput config = headBytes config ++
      (hashOptionalCreatedDateFilter config.skipCreatedBefore ++
        (hashOptionalCreatedDateFilter config.skipCreatedAfter ++
          (flagBytes config ++ (excludeBytes config ++
            (asBytes "unfiled:" ++ [config.unfiled.toUInt8]))))) := by
  simp [configHashInput, headBytes, flagBytes, excludeBytes, terminated, hashBytes,
    List.flatMap_map]

variable {c d : AppConfig}

/-- **The hash input is read back**, up to the time of day of an instant and the order of the
patterns. -/
theorem settings_of_input (h : configHashInput c = configHashInput d) :
    SameSettings c d ∧ excludeBytes c = excludeBytes d := by
  rw [configHashInput_eq, configHashInput_eq] at h
  obtain ⟨hhead, hrest⟩ := List.append_inj h rfl
  have hafter (config : AppConfig) (rest : List UInt8) :
      StartsSmall (hashOptionalCreatedDateFilter config.skipCreatedAfter ++ rest) := by
    rw [hashDate_eq]
    simp [StartsSmall, tag_small]
  have hflag (config : AppConfig) (rest : List UInt8) : StartsSmall (flagBytes config ++ rest) := by
    simp [StartsSmall, flagBytes, flag_small]
  obtain ⟨hbefore, hrest⟩ := hashDate_cuts (hafter c _) (hafter d _) hrest
  obtain ⟨hafter, hrest⟩ := hashDate_cuts (hflag c _) (hflag d _) hrest
  obtain ⟨hflags, hrest⟩ := List.append_inj hrest rfl
  have hexcludes := (List.append_inj' hrest (by simp)).1
  simp only [headBytes, List.cons.injEq, true_and, and_true] at hhead
  simp only [flagBytes, List.cons.injEq, and_true] at hflags
  obtain ⟨hresolution, hlive, hedited, halternative, hraw⟩ := hhead
  obtain ⟨hforce, hphotos, hvideos, hlivePhotos, hmode⟩ := hflags
  have hmedia : c.media = d.media := by
    have hp := toUInt8_injective hphotos
    have hv := toUInt8_injective hvideos
    have hl := toUInt8_injective hlivePhotos
    cases hc : c.media
    cases hd : d.media
    simp_all
  exact ⟨{
    resolution := PhotoResolution.toU8_injective hresolution
    liveResolution := AssetVersionSize.toU8_injective hlive
    edited := toUInt8_injective hedited
    alternative := toUInt8_injective halternative
    rawPolicy := RawPolicy.toU8_injective hraw
    before := sameDay_of_hash hbefore
    after := sameDay_of_hash hafter
    forceResolution := toUInt8_injective hforce
    media := hmedia
    livePhotoMode := LivePhotoMode.toU8_injective hmode }, hexcludes⟩

theorem excludes_of_bytes (h : excludeBytes c = excludeBytes d) (hc : c.NulFree) (hd : d.NulFree) :
    ∀ pattern, pattern ∈ c.filenameExclude ↔ pattern ∈ d.filenameExclude := by
  have hmem (config : AppConfig) (pattern : String) :
      pattern ∈ sortedExcludes config ↔ pattern ∈ config.filenameExclude :=
    (List.mergeSort_perm _ _).mem_iff
  have hwords (config : AppConfig) (hfree : config.NulFree) :
      ∀ w ∈ (sortedExcludes config).map asBytes, 0 ∉ w := by
    intro w hw
    obtain ⟨pattern, hpattern, rfl⟩ := List.mem_map.mp hw
    exact hfree pattern ((hmem config pattern).mp hpattern)
  have hsorted := terminated_inj (hwords c hc) (hwords d hd) h
  have hinjective : Function.Injective asBytes := fun _ _ => asBytes_injective
  intro pattern
  rw [← hmem c, ← hmem d, List.map_injective_iff.mpr hinjective hsorted]

/-! ## what the settings decide -/

theorem SameSettings.candidates (h : SameSettings c d) (host : Host) (asset : PhotoAsset) :
    extractSkipCandidates host asset c.toDownloadConfig =
      extractSkipCandidates host asset d.toDownloadConfig := by
  rw [extractSkipCandidates, extractSkipCandidates]
  generalize hctx : DerivationContext.build host asset c.toDownloadConfig = ctx
  generalize hctx' : DerivationContext.build host asset d.toDownloadConfig = ctx'
  have hversions : ctx.versions = ctx'.versions := by
    simp [← hctx, ← hctx', DerivationContext.build, h.rawPolicy]
  have hprimary : selectPrimary asset c.toDownloadConfig ctx =
      selectPrimary asset d.toDownloadConfig ctx' := by
    simp [selectPrimary, hversions, h.resolution, h.forceResolution, h.livePhotoMode]
  have hextra : selectExtra ctx = selectExtra ctx' := by
    funext seenUrls wanted key
    simp [selectExtra, hversions]
  have hedited : selectEditedExtra c.toDownloadConfig ctx =
      selectEditedExtra d.toDownloadConfig ctx' := by
    funext seenUrls
    simp [selectEditedExtra, hextra, h.edited]
  have halternative : selectAlternativeExtra asset c.toDownloadConfig ctx =
      selectAlternativeExtra asset d.toDownloadConfig ctx' := by
    funext seenUrls
    simp [selectAlternativeExtra, hextra, h.alternative]
  have hliveEdited : selectLiveEditedExtra asset c.toDownloadConfig ctx =
      selectLiveEditedExtra asset d.toDownloadConfig ctx' := by
    funext seenUrls
    simp [selectLiveEditedExtra, hextra, h.edited]
  have hmov : selectMovCompanion asset c.toDownloadConfig ctx =
      selectMovCompanion asset d.toDownloadConfig ctx' := by
    funext seenUrls
    simp [selectMovCompanion, hversions, h.liveResolution, h.forceResolution, h.livePhotoMode]
  simp only [hprimary, hedited, halternative, hliveEdited, hmov]

/-- The asset was not created on the UTC day of an instant cutoff. -/
def OffDay (f : Option CreatedDateFilter) (asset : PlannedAsset) : Prop :=
  ∀ boundary, f = some (.instant boundary) → utcDay asset.created ≠ utcDay boundary

theorem excludes_of_sameDay {f g : Option CreatedDateFilter} {asset : PlannedAsset}
    (h : SameDay f g) (hday : OffDay f asset) (captureDate : Int) :
    f.any (·.excludesBefore asset.created captureDate) =
        g.any (·.excludesBefore asset.created captureDate) ∧
      f.any (·.excludesAfter asset.created captureDate) =
        g.any (·.excludesAfter asset.created captureDate) := by
  rcases f with - | ⟨a | a⟩ <;> rcases g with - | ⟨b | b⟩ <;> simp only [SameDay] at h
  · exact ⟨rfl, rfl⟩
  · contradiction
  · contradiction
  · contradiction
  · have hne : utcDay asset.created ≠ utcDay a := hday a rfl
    unfold utcDay at h hne
    simp only [Option.any_some, CreatedDateFilter.excludesBefore,
      CreatedDateFilter.excludesAfter, decide_eq_decide]
    omega
  · simp at h
  · contradiction
  · simp at h
  · obtain rfl : a = b := by simpa using h
    exact ⟨rfl, rfl⟩

/-- The same assets pass the filter, but for those of the day of an instant cutoff. -/
theorem SameSettings.filtered (h : SameSettings c d)
    (hexcludes : ∀ pattern, pattern ∈ c.filenameExclude ↔ pattern ∈ d.filenameExclude) (host : Host)
    (excludeAssetIds : List String) {asset : PlannedAsset}
    (hbefore : OffDay c.skipCreatedBefore asset) (hafter : OffDay c.skipCreatedAfter asset) :
    isAssetFiltered host asset (c.toPassConfig excludeAssetIds) =
      isAssetFiltered host asset (d.toPassConfig excludeAssetIds) := by
  have hnames (filename : String) :
      c.filenameExclude.any (fun p => host.globMatches p filename) =
        d.filenameExclude.any (fun p => host.globMatches p filename) := by
    rw [Bool.eq_iff_iff, List.any_eq_true, List.any_eq_true]
    simp only [hexcludes]
  have hdates := (excludes_of_sameDay h.before hbefore asset.createdLocal.dateNaive).1
  have hdates' := (excludes_of_sameDay h.after hafter asset.createdLocal.dateNaive).2
  unfold isAssetFiltered AppConfig.toPassConfig
  rw [hdates, hdates', h.media, h.livePhotoMode]
  simp only [hnames]

/--
**Configurations with one hash input** select the same versions of every asset,
and accept the same assets but for those created on the UTC day of an instant
cutoff.
-/
theorem same_input_same_eligibility (host : Host) (c d : AppConfig)
    (h : configHashInput c = configHashInput d) (hc : c.NulFree) (hd : d.NulFree) :
    (∀ asset, extractSkipCandidates host asset c.toDownloadConfig =
      extractSkipCandidates host asset d.toDownloadConfig) ∧
    ∀ excludeAssetIds asset, OffDay c.skipCreatedBefore asset → OffDay c.skipCreatedAfter asset →
      isAssetFiltered host asset (c.toPassConfig excludeAssetIds) =
        isAssetFiltered host asset (d.toPassConfig excludeAssetIds) := by
  obtain ⟨hsettings, hexcludes⟩ := settings_of_input h
  exact ⟨hsettings.candidates host, fun excludeAssetIds _ hbefore hafter =>
    hsettings.filtered (excludes_of_bytes hexcludes hc hd) host excludeAssetIds hbefore hafter⟩

/-! ## two cutoffs on one day -/

/-- A configuration with a lower cutoff. -/
def cutoffConfig (millis : Int) : AppConfig where
  __ := sampleConfig
  filenameExclude := ["*.AAE"]
  media := ⟨true, true, true⟩
  skipCreatedBefore := some (.instant millis)
  skipCreatedAfter := none
  unfiled := true

def cutoffHost : Host := sampleHost

def photoOf (millis : Int) : PlannedAsset :=
  { samplePlanned "m" with
    assetRecordName := "a", createdLocal := ⟨millis, 0⟩, created := millis }

/-- **The hash does not see the time of day, but the filter does.** -/
theorem same_input_other_decision :
    configHashInput (cutoffConfig 1767225600000) = configHashInput (cutoffConfig 1767225609000) ∧
      isAssetFiltered cutoffHost (photoOf 1767225605000)
        ((cutoffConfig 1767225600000).toPassConfig []) = none ∧
      isAssetFiltered cutoffHost (photoOf 1767225605000)
        ((cutoffConfig 1767225609000).toPassConfig []) = some .dateRange := by
  refine ⟨rfl, by decide, by decide⟩

/-- The photo of another day. -/
theorem same_input_same_eligibility_day :
    isAssetFiltered cutoffHost (photoOf 1767312000000)
        ((cutoffConfig 1767225600000).toPassConfig []) =
      isAssetFiltered cutoffHost (photoOf 1767312000000)
        ((cutoffConfig 1767225609000).toPassConfig []) := by
  have hfree (millis : Int) : (cutoffConfig millis).NulFree := by
    intro pattern hpattern
    obtain rfl : pattern = "*.AAE" := by simpa [cutoffConfig] using hpattern
    decide
  refine (same_input_same_eligibility cutoffHost (cutoffConfig 1767225600000)
    (cutoffConfig 1767225609000) rfl (hfree _) (hfree _)).2 [] _ ?_ ?_
  · intro boundary hboundary
    obtain rfl : 1767225600000 = boundary := by simpa [cutoffConfig] using hboundary
    decide
  · intro boundary hboundary
    simp [cutoffConfig] at hboundary

end Kei.Download
