import Kei.Download.Contained
import Kei.Download.Ordinals
import Kei.Import

/-!
# Kei.Import.Collisions

The collision names that the import recognises, and those that downloads get.

A download gets the id of the asset and maybe an ordinal between the stem and
the extension, and the name is cleaned as a whole.  The import cleans first and
takes any ordinal that parses, so it recognises more names, and misses those
that are cut.
-/

namespace Kei.Import

open Str Download

variable {base assetId candidate : String}

/-- The file names that a download gets in place of a taken one. -/
def Generated (base assetId candidate : String) : Prop :=
  candidate = cleanFilename (insertAssetIdentitySuffix base assetId) ∨
    ∃ n, 2 ≤ n ∧ n < 2 ^ 64 ∧ candidate = ordinalName base assetId n

/-- A name with an ordinal that parses, but is not one that a download gets. -/
def OddOrdinal (base assetId candidate : String) : Prop :=
  ∃ ordinal, (parseU64 ordinal).isSome = true ∧
    (∀ n, 2 ≤ n → n < 2 ^ 64 → ordinal ≠ toString n) ∧
      candidate = insertSuffix (cleanFilename base) (assetIdentitySuffix assetId ++ "-" ++ ordinal)

/-! ## what is recognised -/

theorem rsplitOnce_eq_some_iff {sep : Char} {s stem ext : String} :
    rsplitOnce sep s = some (stem, ext) ↔
      s.toList = stem.toList ++ sep :: ext.toList ∧ sep ∉ ext.toList := by
  constructor
  · exact toList_of_rsplitOnce
  · intro ⟨hs, hext⟩
    simpa using rsplitOnce_of_not_mem hs hext

theorem isOrdinal_iff {start candidate : String} :
    (start.toList.isPrefixOf candidate.toList &&
      (parseU64 (String.ofList (candidate.toList.drop start.toList.length))).isSome) = true ↔
        ∃ ordinal, (parseU64 ordinal).isSome = true ∧ candidate = start ++ ordinal := by
  rw [Bool.and_eq_true, List.isPrefixOf_iff_prefix]
  constructor
  · intro ⟨hfront, hparse⟩
    refine ⟨_, hparse, ?_⟩
    obtain ⟨rest, hrest⟩ := hfront
    rw [← String.toList_inj, String.toList_append, String.toList_ofList, ← hrest,
      List.drop_left]
  · rintro ⟨ordinal, hparse, rfl⟩
    rw [String.toList_append, List.drop_left, String.ofList_toList]
    exact ⟨List.prefix_append _ _, hparse⟩

/-- **The import recognises** the id of the asset with any ordinal that parses. -/
theorem matches_iff : filenameMatchesIdentityCollision base assetId candidate = true ↔
    candidate = insertSuffix (cleanFilename base) (assetIdentitySuffix assetId) ∨
      ∃ ordinal, (parseU64 ordinal).isSome = true ∧ candidate =
        insertSuffix (cleanFilename base) (assetIdentitySuffix assetId ++ "-" ++ ordinal) := by
  unfold filenameMatchesIdentityCollision
  dsimp only
  split
  · next hplain => simp [hplain]
  · next hplain =>
      rw [or_iff_right hplain]
      unfold insertSuffix insertBeforeExtension
      cases hbase : rsplitOnce '.' (cleanFilename base) with
      | none =>
          rw [isOrdinal_iff]
          simp only [String.append_assoc]
      | some parts =>
          obtain ⟨stem, ext⟩ := parts
          have hjoin (front : String) : candidate = front ++ "." ++ ext ↔
              rsplitOnce '.' candidate = some (front, ext) := by
            rw [rsplitOnce_eq_some_iff, and_iff_left (toList_of_rsplitOnce hbase).2,
              ← String.toList_inj]
            simp
          simp only [hjoin]
          cases hcandidate : rsplitOnce '.' candidate with
          | none => simp
          | some parts' =>
              obtain ⟨stem', ext'⟩ := parts'
              rw [Bool.and_eq_true, decide_eq_true_eq, isOrdinal_iff]
              simp only [Option.some.injEq, Prod.mk.injEq, String.append_assoc]
              constructor
              · intro ⟨hext, ordinal, hparse, hstem⟩
                exact ⟨ordinal, hparse, hstem, hext⟩
              · intro ⟨ordinal, hparse, hstem, hext⟩
                exact ⟨hext, ordinal, hparse, hstem⟩

/-! ## what is not generated -/

theorem insertBeforeExtension_parts (path : String) :
    ∃ pre post, path.toList = pre ++ post ∧ ∀ suffix,
      (insertBeforeExtension path suffix).toList = pre ++ suffix.toList ++ post := by
  obtain ⟨pre, post, -, hparts⟩ := insertBeforeExtension_eq path
  have hempty : insertBeforeExtension path "" = path := by
    unfold insertBeforeExtension
    split
    · next hsplit =>
        rw [← String.toList_inj, (toList_of_rsplitOnce hsplit).1]
        simp
    · simp
  have hpath := hparts ""
  rw [hempty] at hpath
  exact ⟨pre, post, by simpa using hpath, hparts⟩

/-- A name that is generated has at most the plus signs of the base and of the id. -/
theorem count_generated (h : Generated base assetId candidate) :
    candidate.toList.count '+' ≤
      (cleanChars base.toList).count '+' + (assetIdentitySuffix assetId).toList.count '+' := by
  obtain ⟨pre, post, hbase, hparts⟩ := insertBeforeExtension_parts base
  have hcount (suffix : String) (hsuffix : (cleanChars suffix.toList).count '+' ≤
      (assetIdentitySuffix assetId).toList.count '+') :
      (cleanFilename (insertBeforeExtension base ("-" ++ suffix))).toList.count '+' ≤
        (cleanChars base.toList).count '+' + (assetIdentitySuffix assetId).toList.count '+' := by
    have hname := hparts ("-" ++ suffix)
    have hne : insertBeforeExtension base ("-" ++ suffix) ≠ "" := by
      intro hempty
      rw [hempty] at hname
      simp at hname
    have hsub := (cleanFilename_sublist hne).count_le '+'
    rw [hname] at hsub
    rw [hbase]
    simp only [String.toList_append, cleanChars_append, List.count_append] at hsub ⊢
    have hhyphen : (cleanChars "-".toList).count '+' = 0 := by decide
    omega
  have hid := cleanChars_cleanFilename assetId
  obtain rfl | ⟨n, -, -, rfl⟩ := h
  · exact hcount _ (by rw [assetIdentitySuffix, hid])
  · refine hcount _ ?_
    have hdigits : (Nat.toDigits 10 n).count '+' = 0 := by
      rw [List.count_eq_zero]
      intro hmem
      have hdigit := Nat.isDigit_of_mem_toDigits (by simp) (by simp) hmem
      simp at hdigit
    have hhyphen : (cleanChars "-".toList).count '+' = 0 := by decide
    rw [String.toList_append, String.toList_append, toList_toString, cleanChars_append,
      cleanChars_append, cleanChars_toDigits, List.count_append, List.count_append,
      assetIdentitySuffix, hid]
    omega

theorem byteLen_generated (h : Generated base assetId candidate) :
    byteLen candidate ≤ maxFilenameBytes := by
  obtain rfl | ⟨n, -, -, rfl⟩ := h
  · exact byteLen_cleanFilename _
  · exact byteLen_cleanFilename _

/-- A name that is recognised has the whole base and the whole id. -/
theorem byteLen_matches (h : filenameMatchesIdentityCollision base assetId candidate = true) :
    byteLen (cleanFilename base) + 1 + byteLen (assetIdentitySuffix assetId) ≤
      byteLen candidate := by
  obtain ⟨pre, post, hbase, hparts⟩ := insertBeforeExtension_parts (cleanFilename base)
  have hbytes : byteLen (cleanFilename base) = bytesOf pre + bytesOf post := by
    rw [byteLen_eq, hbase, bytesOf_append]
  have hhyphen : bytesOf "-".toList = 1 := by decide
  have hid := byteLen_eq (assetIdentitySuffix assetId)
  rw [byteLen_eq candidate]
  obtain rfl | ⟨ordinal, -, rfl⟩ := matches_iff.mp h
  · rw [insertSuffix, hparts]
    simp only [String.toList_append, bytesOf_append]
    omega
  · rw [insertSuffix, hparts]
    simp only [String.toList_append, bytesOf_append]
    omega

/-- **An ordinal with a sign** is recognised, whatever the name and the id, and never
generated. -/
theorem signed_not_generated (base assetId : String) : ∃ candidate,
    filenameMatchesIdentityCollision base assetId candidate = true ∧
      ¬ Generated base assetId candidate := by
  refine ⟨_, matches_iff.mpr (.inr ⟨"+2", by decide, rfl⟩), fun h => ?_⟩
  obtain ⟨pre, post, hbase, hparts⟩ := insertBeforeExtension_parts (cleanFilename base)
  have hcount := count_generated h
  have hlen := byteLen_generated h
  unfold insertSuffix at hcount hlen
  rw [byteLen_eq, hparts] at hlen
  rw [hparts] at hcount
  simp only [String.toList_append, List.count_append, bytesOf_append] at hcount hlen
  have hplus : "+2".toList.count '+' = 1 := by decide
  have hbase' : (cleanFilename base).toList.count '+' = pre.count '+' + post.count '+' := by
    rw [hbase, List.count_append]
  have hbytes : byteLen (cleanFilename base) = bytesOf pre + bytesOf post := by
    rw [byteLen_eq, hbase, bytesOf_append]
  have hhyphen : bytesOf "-".toList = 1 := by decide
  have hsuffix : bytesOf "+2".toList = 2 := by decide
  have hmax : maxFilenameBytes = 255 := rfl
  by_cases hne : base = ""
  · subst hne
    simp only [String.toList_empty, cleanChars_nil, List.count_nil] at hcount
    omega
  · rw [cleanFilename_of_short hne (by omega), String.toList_ofList] at hbase'
    omega

/-! ## names with room -/

/-- Nothing of a name that is generated is cut. -/
structure Fits (base assetId : String) : Prop where
  nonempty : base ≠ ""
  room : bytesOf (cleanChars
    (insertAssetIdentityOrdinalSuffix base assetId (2 ^ 64 - 1)).toList) ≤ maxFilenameBytes

theorem not_mem_of_rsplitOnce {sep : Char} {s : String} (h : rsplitOnce sep s = none) :
    sep ∉ s.toList := by
  intro hmem
  unfold rsplitOnce at h
  split at h
  · next hnil =>
      have hjoin := List.takeWhile_append_dropWhile (p := (· ≠ sep)) (l := s.toList.reverse)
      rw [hnil, List.append_nil] at hjoin
      rw [← List.mem_reverse, ← hjoin] at hmem
      exact of_decide_eq_true (List.all_eq_true.mp List.all_takeWhile sep hmem) rfl
  · cases h

/-- A base that is not cut takes a suffix in the same place before the cleaning and after. -/
theorem insertBeforeExtension_clean (hne : base ≠ "")
    (hlen : bytesOf (cleanChars base.toList) ≤ maxFilenameBytes) :
    ∃ pre post, base.toList = pre ++ post ∧ ∀ suffix,
      (insertBeforeExtension base suffix).toList = pre ++ suffix.toList ++ post ∧
        (insertBeforeExtension (cleanFilename base) suffix).toList =
          cleanChars pre ++ suffix.toList ++ cleanChars post := by
  have hclean := cleanFilename_of_le hne hlen
  cases hsplit : rsplitOnce '.' base with
  | none =>
      have hnone : rsplitOnce '.' (cleanFilename base) = none := by
        cases hdot : rsplitOnce '.' (cleanFilename base) with
        | none => rfl
        | some parts =>
            have hparts := (toList_of_rsplitOnce hdot).1
            rw [hclean, String.toList_ofList] at hparts
            have hmem : '.' ∈ cleanChars base.toList := by simp [hparts]
            exact absurd (dot_mem_cleanChars.mp hmem) (not_mem_of_rsplitOnce hsplit)
      refine ⟨base.toList, [], by simp, fun suffix => ?_⟩
      unfold insertBeforeExtension
      rw [hsplit, hnone]
      simp [hclean]
  | some parts =>
      obtain ⟨stem, ext⟩ := parts
      obtain ⟨hbase, hext⟩ := toList_of_rsplitOnce hsplit
      refine ⟨stem.toList, '.' :: ext.toList, hbase, fun suffix => ?_⟩
      refine ⟨insertBeforeExtension_of_dot hbase hext suffix, ?_⟩
      rw [cleanChars_cons, cleanChar_dot]
      refine insertBeforeExtension_of_dot ?_ (fun h => hext (dot_mem_cleanChars.mp h)) suffix
      rw [hclean, String.toList_ofList, hbase]
      simp

/-- Where there is room, it does not matter which is first, the cleaning or the suffix. -/
theorem cleanFilename_insertSuffix {suffix : String} (hne : base ≠ "")
    (hsuffix : cleanChars suffix.toList = suffix.toList)
    (hroom : bytesOf (cleanChars (insertSuffix base suffix).toList) ≤ maxFilenameBytes) :
    cleanFilename (insertSuffix base suffix) = insertSuffix (cleanFilename base) suffix := by
  obtain ⟨pre, post, hbase, hparts⟩ := insertBeforeExtension_parts base
  have hlen : bytesOf (cleanChars base.toList) ≤ maxFilenameBytes := by
    unfold insertSuffix at hroom
    rw [hparts] at hroom
    rw [hbase]
    simp only [cleanChars_append, bytesOf_append] at hroom ⊢
    omega
  obtain ⟨pre, post, -, hboth⟩ := insertBeforeExtension_clean hne hlen
  have hname := (hboth ("-" ++ suffix)).1
  have hfilled : insertSuffix base suffix ≠ "" := by
    intro hempty
    unfold insertSuffix at hempty
    rw [hempty] at hname
    simp at hname
  rw [cleanFilename_of_le hfilled hroom, ← String.toList_inj, String.toList_ofList]
  unfold insertSuffix
  rw [hname, (hboth ("-" ++ suffix)).2]
  simp [hsuffix]

theorem insertSuffix_inj {path s s' : String} (h : insertSuffix path s = insertSuffix path s') :
    s = s' := by
  obtain ⟨pre, post, -, hparts⟩ := insertBeforeExtension_parts path
  have hlists := congrArg String.toList h
  unfold insertSuffix at hlists
  rw [hparts, hparts] at hlists
  simpa [String.toList_inj] using hlists

theorem generated_iff (h : Fits base assetId) : Generated base assetId candidate ↔
    candidate = insertSuffix (cleanFilename base) (assetIdentitySuffix assetId) ∨
      ∃ n, 2 ≤ n ∧ n < 2 ^ 64 ∧ candidate =
        insertSuffix (cleanFilename base) (assetIdentitySuffix assetId ++ "-" ++ toString n) := by
  obtain ⟨pre, post, -, hparts⟩ := insertBeforeExtension_parts base
  have hid : cleanChars (assetIdentitySuffix assetId).toList =
      (assetIdentitySuffix assetId).toList := cleanChars_cleanFilename assetId
  have hordinal (n : Nat) : cleanChars (assetIdentitySuffix assetId ++ "-" ++ toString n).toList =
      (assetIdentitySuffix assetId ++ "-" ++ toString n).toList := by
    rw [String.toList_append, String.toList_append, toList_toString]
    simp [hid, cleanChars_toDigits]
  have hroom := h.room
  unfold insertAssetIdentityOrdinalSuffix insertSuffix at hroom
  rw [hparts] at hroom
  simp only [String.toList_append, cleanChars_append, bytesOf_append, toList_toString,
    cleanChars_toDigits] at hroom
  have hplain : cleanFilename (insertAssetIdentitySuffix base assetId) =
      insertSuffix (cleanFilename base) (assetIdentitySuffix assetId) := by
    refine cleanFilename_insertSuffix h.nonempty hid ?_
    unfold insertSuffix
    rw [hparts]
    simp only [String.toList_append, cleanChars_append, bytesOf_append]
    omega
  have hnumbered (n : Nat) (hn : n < 2 ^ 64) : ordinalName base assetId n =
      insertSuffix (cleanFilename base) (assetIdentitySuffix assetId ++ "-" ++ toString n) := by
    refine cleanFilename_insertSuffix h.nonempty (hordinal n) ?_
    have hdigits := bytesOf_toDigits_le hn
    unfold insertSuffix
    rw [hparts]
    simp only [String.toList_append, cleanChars_append, bytesOf_append, toList_toString,
      cleanChars_toDigits]
    omega
  unfold Generated
  rw [hplain]
  refine or_congr_right (exists_congr fun n => and_congr_right fun _ => ?_)
  refine and_congr_right fun hn => ?_
  rw [hnumbered n hn]

theorem matches_iff_of_fits (h : Fits base assetId) :
    (filenameMatchesIdentityCollision base assetId candidate = true ↔
      Generated base assetId candidate) ↔ ¬ OddOrdinal base assetId candidate := by
  rw [matches_iff, generated_iff h]
  constructor
  · rintro hiff ⟨ordinal, hparse, hodd, rfl⟩
    obtain hplain | ⟨n, htwo, hn, hsame⟩ := hiff.mp (.inr ⟨ordinal, hparse, rfl⟩)
    · have hlength := congrArg String.length (insertSuffix_inj hplain)
      simp only [String.length_append] at hlength
      have hhyphen : "-".length = 1 := rfl
      omega
    · have hsuffix := insertSuffix_inj hsame
      rw [String.append_right_inj] at hsuffix
      exact hodd n htwo hn hsuffix
  · intro hodd
    refine or_congr_right ⟨fun ⟨ordinal, hparse, hname⟩ => ?_, fun ⟨n, htwo, hn, hname⟩ => ?_⟩
    · by_contra hnone
      refine hodd ⟨ordinal, hparse, fun n htwo hn hsame => hnone ⟨n, htwo, hn, ?_⟩, hname⟩
      rw [← hsame, hname]
    · exact ⟨toString n, by rw [parseU64_toString hn]; rfl, hname⟩

/--
**The import does not recognise the names that downloads get**: for every base
and id it takes another name too.  Where nothing is cut, it tells a name right
exactly if the name has no odd ordinal.
-/
theorem matches_not_generated (base assetId : String) :
    (¬ ∀ candidate, filenameMatchesIdentityCollision base assetId candidate = true ↔
      Generated base assetId candidate) ∧
    (Fits base assetId → ∀ candidate,
      (filenameMatchesIdentityCollision base assetId candidate = true ↔
        Generated base assetId candidate) ↔ ¬ OddOrdinal base assetId candidate) := by
  refine ⟨fun hall => ?_, fun hfits candidate => matches_iff_of_fits hfits⟩
  obtain ⟨candidate, hmatches, hnot⟩ := signed_not_generated base assetId
  exact hnot ((hall candidate).mp hmatches)

/-- A short name, where nothing is cut. -/
theorem matches_not_generated_photo :
    (¬ ∀ candidate, filenameMatchesIdentityCollision "IMG.JPG" "A" candidate = true ↔
      Generated "IMG.JPG" "A" candidate) ∧
    ((filenameMatchesIdentityCollision "IMG.JPG" "A" "IMG-A-2.JPG" = true ↔
      Generated "IMG.JPG" "A" "IMG-A-2.JPG") ↔ ¬ OddOrdinal "IMG.JPG" "A" "IMG-A-2.JPG") :=
  ⟨(matches_not_generated "IMG.JPG" "A").1,
    (matches_not_generated "IMG.JPG" "A").2 ⟨by decide, by decide +kernel⟩ "IMG-A-2.JPG"⟩

/-- A name with 250 letters before its extension. -/
def longBase : String := String.ofList (List.replicate 250 'a') ++ ".JPG"

theorem byteLen_cleanFilename_longBase : byteLen (cleanFilename longBase) = 254 := by
  have hlist : longBase.toList = List.replicate 250 'a' ++ ".JPG".toList :=
    String.toList_append.trans (congrArg (· ++ ".JPG".toList) String.toList_ofList)
  have hclean : cleanChars longBase.toList = longBase.toList := by
    refine cleanChars_eq_self ?_
    rw [hlist, List.any_append, List.any_replicate]
    decide
  have hbytes : bytesOf longBase.toList = 254 := by
    have hstem : bytesOf (List.replicate 250 'a') = (List.replicate 250 'a').length :=
      bytesOf_of_all_one fun c hc => by
        rw [List.eq_of_mem_replicate hc]
        rfl
    have hext : bytesOf ".JPG".toList = 4 := by decide
    rw [hlist, bytesOf_append, hext, hstem, List.length_replicate]
  have hne : longBase ≠ "" := by
    intro h
    rw [h] at hbytes
    exact absurd hbytes (by decide)
  have hlimit : bytesOf (cleanChars longBase.toList) ≤ maxFilenameBytes := by
    rw [hclean, hbytes]
    decide
  have hname : cleanFilename longBase = longBase := by
    rw [cleanFilename_of_le hne hlimit, hclean, String.ofList_toList]
  exact (congrArg byteLen hname).trans hbytes

/-- **A file that a download wrote is not recognised**: its name is cut in the id of the asset. -/
theorem long_name_is_not_recognised :
    ¬ ∀ candidate, filenameMatchesIdentityCollision longBase "A" candidate = true ↔
      Generated longBase "A" candidate := by
  intro hall
  have hmatches := byteLen_matches ((hall _).mpr (.inl rfl))
  have hlimit := byteLen_cleanFilename (insertAssetIdentitySuffix longBase "A")
  have hbase := byteLen_cleanFilename_longBase
  have hid : byteLen (assetIdentitySuffix "A") = 1 := by decide
  have hmax : maxFilenameBytes = 255 := rfl
  omega

end Kei.Import
