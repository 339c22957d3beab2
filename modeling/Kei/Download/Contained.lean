import Kei.Download.CleanNames
import Kei.Download.Names
import Kei.Lib.Replace

/-!
# Kei.Download.Contained

Downloads stay inside the root.

Whatever the date formatting makes of a template, each of its pieces becomes
one normal component.  A file name becomes one too, unless it is `.` or `..`:
these pass through the cleaning as they are.
-/

namespace Kei.Download

open Str

/-- A component that names an entry of the directory before it, on every platform. -/
structure Normal (name : String) : Prop where
  clean : ∀ c ∈ name.toList, isInvalid c = false
  nonempty : name ≠ ""
  notDot : name ≠ "."
  notParent : name ≠ ".."

theorem normal_underscore : Normal "_" where
  clean c hc := by simp_all [isInvalid, isControl]
  nonempty := by decide
  notDot := by decide
  notParent := by decide

variable {name : String}

theorem Normal.plain (h : Normal name) : Plain name where
  noSlash hmem := absurd (h.clean '/' hmem) (by decide)
  nonempty := h.nonempty
  notDot := h.notDot

/-! ## file names -/

theorem isInvalid_cleanChars {l : List Char} : ∀ c ∈ cleanChars l, isInvalid c = false := by
  intro c hc
  obtain ⟨d, -, rfl⟩ := List.mem_map.mp hc
  unfold cleanChar
  split
  · decide
  · next h => simpa using h

/-- A name is cleaned as a whole, or cut in one place to at least 252 bytes. -/
theorem cleanFilename_cases (hne : name ≠ "") :
    (cleanFilename name = String.ofList (cleanChars name.toList) ∧
        bytesOf (cleanChars name.toList) ≤ maxFilenameBytes) ∨
      ∃ n front back, (cleanFilename name).toList = takeBytes n front ++ back ∧
        cleanChars name.toList = front ++ back ∧ n ≤ bytesOf front ∧
          n + bytesOf back = maxFilenameBytes := by
  by_cases hlen : bytesOf (cleanChars name.toList) ≤ maxFilenameBytes
  · exact .inl ⟨cleanFilename_of_le hne hlen, hlen⟩
  · refine .inr ?_
    have hwhole : ∃ n front back, (floorBytes maxFilenameBytes
        (String.ofList (cleanChars name.toList))).toList = takeBytes n front ++ back ∧
          cleanChars name.toList = front ++ back ∧ n ≤ bytesOf front ∧
            n + bytesOf back = maxFilenameBytes :=
      ⟨maxFilenameBytes, cleanChars name.toList, [], by simp [floorBytes], by simp, by omega, rfl⟩
    rw [cleanFilename_cut hne (Nat.lt_of_not_le hlen)]
    split
    · next stem ext hsplit =>
        obtain ⟨hparts, -⟩ := toList_of_rsplitOnce hsplit
        rw [String.toList_ofList] at hparts
        have hext : byteLen ("." ++ ext) = 1 + bytesOf ext.toList := by
          rw [byteLen_eq, String.toList_append, bytesOf_append]
          rfl
        have htotal : bytesOf (cleanChars name.toList) =
            bytesOf stem.toList + (1 + bytesOf ext.toList) := by
          rw [hparts, bytesOf_append, bytesOf_cons]
          rfl
        split
        · next hfits =>
            refine ⟨maxFilenameBytes - byteLen ("." ++ ext), stem.toList, '.' :: ext.toList, ?_,
              hparts, by omega, ?_⟩
            · simp [floorBytes]
            · rw [bytesOf_cons, show ('.' : Char).utf8Size = 1 from rfl]
              omega
        · exact hwhole
    · exact hwhole

/-- What is left of a name is what is cleaned, with nothing else in it. -/
theorem cleanFilename_sublist (hne : name ≠ "") :
    (cleanFilename name).toList.Sublist (cleanChars name.toList) := by
  obtain ⟨hclean, -⟩ | ⟨n, front, back, hcut, hparts, -⟩ := cleanFilename_cases hne
  · rw [hclean, String.toList_ofList]
  · rw [hcut, hparts]
    exact (takeBytes_isFront n front).sublist.append_right back

theorem cleanFilename_clean (name : String) :
    ∀ c ∈ (cleanFilename name).toList, isInvalid c = false := by
  by_cases hne : name = ""
  · subst hne
    exact normal_underscore.clean
  · exact fun c hc => isInvalid_cleanChars c ((cleanFilename_sublist hne).subset hc)

theorem cleanChars_cleanFilename (name : String) :
    cleanChars (cleanFilename name).toList = (cleanFilename name).toList :=
  cleanChars_eq_self (List.any_eq_false.mpr fun c hc => by simp [cleanFilename_clean name c hc])

theorem byteLen_cleanFilename (name : String) :
    byteLen (cleanFilename name) ≤ maxFilenameBytes := by
  by_cases hne : name = ""
  · subst hne
    decide
  · obtain ⟨hclean, hlen⟩ | ⟨n, front, back, hcut, -, -, hbytes⟩ := cleanFilename_cases hne
    · rwa [hclean, byteLen_eq, String.toList_ofList]
    · have htake := (bytesOf_takeBytes n front).1
      rw [byteLen_eq, hcut, bytesOf_append]
      omega

/-- A name that is not cleaned to a short one as a whole has at least 252 bytes. -/
theorem cleanFilename_of_short (hne : name ≠ "") (h : byteLen (cleanFilename name) < 252) :
    cleanFilename name = String.ofList (cleanChars name.toList) := by
  obtain ⟨hclean, -⟩ | ⟨n, front, back, hcut, -, hfront, hbytes⟩ := cleanFilename_cases hne
  · exact hclean
  · have htake := (bytesOf_takeBytes n front).2 hfront
    have hmax : maxFilenameBytes = 255 := rfl
    rw [byteLen_eq, hcut, bytesOf_append] at h
    omega

theorem eq_of_cleanFilename {name word : String} (hne : name ≠ "") (hshort : byteLen word < 252)
    (hword : ∀ c ∈ word.toList, c = '.') (h : cleanFilename name = word) : name = word := by
  have hclean := cleanFilename_of_short hne (h ▸ hshort)
  rw [h, ← String.toList_inj, String.toList_ofList] at hclean
  rw [← String.toList_inj, hclean]
  refine (List.map_id _).symm.trans (List.map_congr_left fun c hc => ?_)
  have hin : cleanChar c ∈ word.toList := hclean ▸ List.mem_map_of_mem hc
  rw [id_eq, hword _ hin, cleanChar_eq_dot (hword _ hin)]

/-- **A file name is one component**, unless it is `.` or `..`. -/
theorem cleanFilename_normal (hdot : name ≠ ".") (hup : name ≠ "..") :
    Normal (cleanFilename name) := by
  by_cases hne : name = ""
  · subst hne
    exact normal_underscore
  · exact ⟨cleanFilename_clean name,
      fun h => hne (eq_of_cleanFilename hne (by decide) (by simp) h),
      fun h => hdot (eq_of_cleanFilename hne (by decide) (by simp) h),
      fun h => hup (eq_of_cleanFilename hne (by decide) (by simp) h)⟩

/-! ## directories -/

variable {p : Char → Bool}

theorem mem_of_mem_dropEndWhile {l : List Char} {c : Char} (h : c ∈ dropEndWhile p l) : c ∈ l := by
  rw [dropEndWhile, List.mem_reverse] at h
  exact List.mem_reverse.mp ((List.dropWhile_sublist p).subset h)

theorem getLast?_dropEndWhile {l : List Char} {c : Char}
    (h : (dropEndWhile p l).getLast? = some c) : p c = false := by
  rw [dropEndWhile, List.getLast?_reverse] at h
  have hnot := List.head?_dropWhile_not p l.reverse
  rw [h] at hnot
  simpa using hnot

/-- **Every piece of a directory becomes one component**, whatever is in it. -/
theorem sanitizePathComponent_normal (platform : Platform) (name : String) :
    Normal (sanitizePathComponent platform name) := by
  unfold sanitizePathComponent
  dsimp only
  split
  · exact normal_underscore
  · next hne =>
      have hend (c : Char) (hlast : (dropEndWhile (fun c => c = '.' || c = ' ')
          ((replace (cleanFilename name) ".." "_").toList.dropWhile
            (fun c => c = '.' || c = ' '))).getLast? = some c) : c ≠ '.' := by
        have hedge := getLast?_dropEndWhile hlast
        rintro rfl
        simp at hedge
      have hvalid : ∀ c ∈ dropEndWhile (fun c => c = '.' || c = ' ')
          ((replace (cleanFilename name) ".." "_").toList.dropWhile
            (fun c => c = '.' || c = ' ')), isInvalid c = false := by
        intro c hc
        have hreplaced := (List.dropWhile_sublist _).subset (mem_of_mem_dropEndWhile hc)
        rw [replace, String.toList_ofList] at hreplaced
        obtain hold | hnew := mem_replaceFrom hreplaced
        · exact cleanFilename_clean name c hold
        · obtain rfl := List.mem_singleton.mp hnew
          decide
      generalize dropEndWhile _ _ = trimmed at hne hend hvalid
      have hlast : ∀ word : String, word.toList.getLast? = some '.' → ∀ front : List Char,
          String.ofList (front ++ trimmed) ≠ word := by
        rintro word hword front rfl
        cases trimmed with
        | nil => exact hne rfl
        | cons c rest =>
            rw [String.toList_ofList, List.getLast?_append_of_ne_nil _ (List.cons_ne_nil _ _)]
              at hword
            exact hend '.' hword rfl
      split
      · have hjoin : "_" ++ String.ofList trimmed = String.ofList ('_' :: trimmed) := by
          rw [← String.toList_inj]
          simp
        rw [hjoin]
        refine ⟨?_, by simp, hlast "." rfl ['_'], hlast ".." rfl ['_']⟩
        rw [String.toList_ofList]
        exact List.forall_mem_cons.mpr ⟨by decide, hvalid⟩
      · refine ⟨?_, hne, hlast "." rfl [], hlast ".." rfl []⟩
        rw [String.toList_ofList]
        exact hvalid

/-- A character that is taken off the ends of a component. -/
def isEdge (c : Char) : Bool := c = '.' || c = ' '

theorem not_contains_dots (l : List Char) :
    containsFrom ['.', '.'] (replaceFrom ['.', '.'] ['_'] 0 l) = false := by
  induction l using @piece_induction _ _ ['.', '.'] _ (by simp) with
  | nil => rfl
  | found back ih =>
      rw [replaceFrom_pattern (by simp), List.singleton_append, containsFrom, ih]
      rfl
  | step c l hfront ih =>
      rw [replaceFrom_cons hfront, containsFrom, ih, Bool.or_false]
      cases l with
      | nil => simp [replaceFrom, List.isPrefixOf]
      | cons d l =>
          cases hnext : List.isPrefixOf ['.', '.'] (d :: l) with
          | true =>
              obtain ⟨back, hback⟩ := List.isPrefixOf_iff_prefix.mp hnext
              rw [← hback, replaceFrom_pattern (by simp)]
              simp [List.isPrefixOf]
          | false =>
              rw [replaceFrom_cons hnext]
              simpa [List.isPrefixOf] using hfront

theorem dropWhile_of_head {l : List Char} (h : ∀ c ∈ l.head?, p c = false) : l.dropWhile p = l := by
  cases l with
  | nil => rfl
  | cons c l => simp [h c (by simp)]

theorem dropEndWhile_of_last {l : List Char} (h : ∀ c ∈ l.getLast?, p c = false) :
    dropEndWhile p l = l := by
  rw [dropEndWhile, dropWhile_of_head (by simpa using h), List.reverse_reverse]

theorem dropEndWhile_isFront (p : Char → Bool) (l : List Char) : dropEndWhile p l <+: l := by
  have h := List.dropWhile_suffix p (l := l.reverse)
  rwa [← List.reverse_prefix, List.reverse_reverse] at h

/-- Nothing is left at the ends of a component, nor two dots, nor a name that stands for a
device. -/
structure Cleaned (platform : Platform) (name : String) : Prop where
  noDots : containsFrom ['.', '.'] name.toList = false
  first : ∀ c ∈ name.toList.head?, isEdge c = false
  last : ∀ c ∈ name.toList.getLast?, isEdge c = false
  unreserved : platform = .windows →
    (split (asciiUpper name) '.').headD "" ∉ reservedNames

theorem underscore_not_reserved (name : String) :
    (split (asciiUpper ("_" ++ name)) '.').headD "" ∉ reservedNames := by
  have hupper : (asciiUpper ("_" ++ name)).toList = '_' :: name.toList.map Char.toUpper := by
    simp [asciiUpper]
  have hfirst : ((split (asciiUpper ("_" ++ name)) '.').headD "").toList.head? = some '_' := by
    rw [split, hupper, splitList, if_neg (by decide)]
    cases splitList '.' (name.toList.map Char.toUpper) <;> simp
  have hreserved : ∀ device ∈ reservedNames, device.toList.head? ≠ some '_' := by decide
  exact fun hmem => hreserved _ hmem hfirst

theorem sanitizePathComponent_cleaned (platform : Platform) (name : String) :
    Cleaned platform (sanitizePathComponent platform name) := by
  have hedge : (fun c => decide (c = '.') || decide (c = ' ')) = isEdge := rfl
  unfold sanitizePathComponent
  dsimp only
  rw [hedge]
  have hdots : containsFrom ['.', '.'] (replace (cleanFilename name) ".." "_").toList = false := by
    rw [replace, String.toList_ofList]
    exact not_contains_dots _
  generalize (replace (cleanFilename name) ".." "_").toList = replaced at hdots
  have hfront := dropEndWhile_isFront isEdge (replaced.dropWhile isEdge)
  have hlast (c : Char) := @getLast?_dropEndWhile isEdge (replaced.dropWhile isEdge) c
  have hinfix := hfront.isInfix.trans (List.dropWhile_suffix isEdge (l := replaced)).isInfix
  generalize dropEndWhile isEdge (replaced.dropWhile isEdge) = trimmed at *
  have htrimmed : containsFrom ['.', '.'] trimmed = false := by
    rw [← Bool.not_eq_true, containsFrom_iff] at hdots ⊢
    exact fun h => hdots (h.trans hinfix)
  split
  · exact ⟨by decide, by simp [isEdge], by simp [isEdge], fun _ => by decide⟩
  · next hne =>
      cases trimmed with
      | nil => exact absurd rfl hne
      | cons c rest =>
          have hfirst : isEdge c = false := by
            have hhead := List.head?_dropWhile_not isEdge replaced
            obtain ⟨back, hback⟩ := hfront
            rw [← hback] at hhead
            simpa using hhead
          split
          · refine ⟨?_, ?_, ?_, fun _ => underscore_not_reserved _⟩
            · simpa [containsFrom, List.isPrefixOf] using htrimmed
            · simp [isEdge]
            · simpa using hlast
          · next hreserved =>
              refine ⟨?_, ?_, ?_, fun hwindows => ?_⟩
              · simpa using htrimmed
              · simpa using hfirst
              · simpa using hlast
              · simpa [hwindows] using hreserved

theorem byteLen_sanitizePathComponent {platform : Platform} (hplatform : platform ≠ .windows)
    (name : String) : byteLen (sanitizePathComponent platform name) ≤ maxFilenameBytes := by
  have hdots (l : List Char) : bytesOf (replaceFrom ['.', '.'] ['_'] 0 l) ≤ bytesOf l := by
    induction l using @piece_induction _ _ ['.', '.'] _ (by simp) with
    | nil => exact Nat.le_refl _
    | found back ih =>
        rw [replaceFrom_pattern (by simp), bytesOf_append, bytesOf_append]
        exact Nat.add_le_add (by decide) ih
    | step c l hfront ih =>
        rw [replaceFrom_cons hfront, bytesOf_cons, bytesOf_cons]
        omega
  have hreplaced : bytesOf (replace (cleanFilename name) ".." "_").toList ≤ maxFilenameBytes := by
    rw [replace, String.toList_ofList]
    exact Nat.le_trans (hdots _) (byteLen_cleanFilename name)
  unfold sanitizePathComponent
  dsimp only
  generalize (replace (cleanFilename name) ".." "_").toList = replaced at hreplaced
  obtain ⟨front, back, hparts⟩ := (dropEndWhile_isFront (fun c => c = '.' || c = ' ')
    (replaced.dropWhile (fun c => c = '.' || c = ' '))).isInfix.trans
      (List.dropWhile_suffix _).isInfix
  have hbytes := congrArg bytesOf hparts
  rw [bytesOf_append, bytesOf_append] at hbytes
  split
  · decide
  · rw [decide_eq_false hplatform, Bool.false_and, if_neg Bool.false_ne_true, byteLen_eq,
      String.toList_ofList]
    omega

/-- **A component that is cleaned again stays as it is**, if it has at most 255 bytes. -/
theorem sanitizePathComponent_again {platform : Platform}
    (hshort : byteLen (sanitizePathComponent platform name) ≤ maxFilenameBytes) :
    sanitizePathComponent platform (sanitizePathComponent platform name) =
      sanitizePathComponent platform name := by
  have hnormal := sanitizePathComponent_normal platform name
  have hcleaned := sanitizePathComponent_cleaned platform name
  generalize sanitizePathComponent platform name = component at *
  have hfile : cleanFilename component = component := by
    have hvalid : component.toList.any isInvalid = false :=
      List.any_eq_false.mpr fun c hc => by simp [hnormal.clean c hc]
    rw [byteLen_eq, ← cleanChars_eq_self hvalid] at hshort
    rw [cleanFilename_of_le hnormal.nonempty hshort, cleanChars_eq_self hvalid,
      String.ofList_toList]
  have hedge : (fun c => decide (c = '.') || decide (c = ' ')) = isEdge := rfl
  have hdots : replace component ".." "_" = component := by
    have hsame := @replaceFrom_of_not_contains _ _ _ "_".toList _ hcleaned.noDots
    exact String.toList_inj.mp (String.toList_ofList.trans hsame)
  unfold sanitizePathComponent
  dsimp only
  rw [hedge, hfile, hdots, dropWhile_of_head hcleaned.first, dropEndWhile_of_last hcleaned.last,
    String.ofList_toList, if_neg hnormal.nonempty, if_neg]
  simpa using hcleaned.unreserved

theorem localDownloadDir_components (host : Host) (directory : Path) (folderStructure : String)
    (createdDate : DateTime) (albumName : Option String) : ∃ names,
      components (localDownloadDir host directory folderStructure createdDate albumName) =
        components directory ++ names ∧ ∀ name ∈ names, Normal name := by
  have hfold (pieces : List String) (path : Path) :
      components (pieces.foldl (fun path component =>
        join path (sanitizePathComponent host.platform component)) path) =
          components path ++ pieces.map (sanitizePathComponent host.platform) := by
    induction pieces generalizing path with
    | nil => simp
    | cons piece pieces ih =>
        rw [List.foldl_cons, ih, components_join (sanitizePathComponent_normal _ piece).plain,
          List.map_cons, List.append_assoc, List.singleton_append]
  unfold localDownloadDir
  split
  · exact ⟨[], by simp, by simp⟩
  · refine ⟨_, hfold _ directory, fun name hname => ?_⟩
    obtain ⟨piece, -, rfl⟩ := List.mem_map.mp hname
    exact sanitizePathComponent_normal host.platform piece

/-! ## paths -/

/-- The path is the root followed by normal components, the last of which is the name of a file
in the directory of the download, of at most 255 bytes. -/
def Contained (host : Host) (directory : Path) (folderStructure : String)
    (createdDate : DateTime) (filename : String) (albumName : Option String) : Prop :=
  ∃ names last,
    components (localDownloadDir host directory folderStructure createdDate albumName) =
        components directory ++ names ∧
      components (localDownloadPath host directory folderStructure createdDate filename
          albumName) = components directory ++ names ++ [last] ∧
        (∀ name ∈ names ++ [last], Normal name) ∧ byteLen last ≤ maxFilenameBytes

theorem components_join_dot {path : Path} (h : path ≠ "") :
    components (join path ".") = components path := by
  have hdot (base : String) : components (base ++ "/" ++ ".") = components (base ++ "/") := by
    have hnames := namesIn_split_append base "."
    have hempty := namesIn_split_append base ""
    rw [String.append_empty] at hempty
    rw [components_eq, components_eq, lead_append, hnames, hempty]
    rfl
  unfold join
  rw [show startsWith "." '/' = false from by decide]
  simp only [Bool.false_eq_true, if_false]
  by_cases hlast : path.toList.getLast? = some '/'
  · obtain ⟨base, hpath⟩ := exists_slash hlast
    simp only [h, hlast, decide_false, decide_true, Bool.or_true, if_true]
    rw [hpath, hdot]
  · simp only [h, hlast, decide_false, Bool.or_self, Bool.false_eq_true, if_false]
    rw [hdot, components_slash h]

/-- The two names that are no entries lead out of the directory or stay at it. -/
theorem not_normal_join {path : Path} {filename last : String}
    (hname : filename = "." ∨ filename = "..")
    (h : components (join path (cleanFilename filename)) = components path ++ [last]) :
    ¬ Normal last := by
  intro hnormal
  obtain rfl | rfl := hname
  · rw [show cleanFilename "." = "." from by decide] at h
    by_cases hempty : path = ""
    · subst hempty
      have hlast : ["."] = [last] := h
      exact hnormal.notDot (List.singleton_inj.mp hlast).symm
    · rw [components_join_dot hempty] at h
      simpa using congrArg List.length h
  · rw [show cleanFilename ".." = ".." from by decide,
      components_join ⟨by decide, by decide, by decide⟩] at h
    exact hnormal.notParent (List.singleton_inj.mp (List.append_cancel_left h)).symm

/--
**A download stays inside the root**, in a file of its own, if and only if its
file name is neither `.` nor `..`.
-/
theorem localDownloadPath_contained_iff (host : Host) (directory : Path)
    (folderStructure : String) (createdDate : DateTime) (filename : String)
    (albumName : Option String) :
    Contained host directory folderStructure createdDate filename albumName ↔
      filename ≠ "." ∧ filename ≠ ".." := by
  constructor
  · intro ⟨names, last, hdir, hpath, hnormal, _⟩
    rw [← hdir] at hpath
    have hlast : Normal last := hnormal last (by simp)
    exact ⟨fun h => not_normal_join (.inl h) hpath hlast,
      fun h => not_normal_join (.inr h) hpath hlast⟩
  · intro ⟨hdot, hup⟩
    obtain ⟨names, hdir, hnames⟩ :=
      localDownloadDir_components host directory folderStructure createdDate albumName
    have hlast := cleanFilename_normal hdot hup
    refine ⟨names, cleanFilename filename, hdir, ?_, ?_, byteLen_cleanFilename filename⟩
    · rw [localDownloadPath, components_join hlast.plain, hdir]
    · intro name hname
      obtain hmem | hmem := List.mem_append.mp hname
      · exact hnames name hmem
      · exact List.mem_singleton.mp hmem ▸ hlast

/-- **A photo named `..`** is downloaded to the parent of its directory. -/
theorem parent_name_escapes :
    ¬ Contained ⟨.linux, fun _ format => format, fun _ => [], id, fun _ _ => false, fun _ => []⟩
      "/photos" "none" ⟨0, 0⟩ ".." none := by
  intro ⟨names, last, hdir, hpath, hnormal, _⟩
  rw [← hdir] at hpath
  exact not_normal_join (.inr rfl) hpath (hnormal last (by simp))

end Kei.Download
