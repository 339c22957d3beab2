import Kei.Auth.Session
import Kei.Download.CleanNames
import Mathlib.Data.List.Nodup

/-!
# Kei.Auth.Accounts

The files of an account, by its name.

The word characters of the name are kept, and more than 64 bytes of them are
cut and told apart by a hash.  What is kept has no dot, so that the extensions
tell the files of an account apart.
-/

namespace Kei.Auth

open Str

/-! ## names -/

/-- The tables of characters. -/
structure CharTables where
  isAlphanumeric : Char → Bool
  ascii : ∀ c, c.toNat < 128 → isAlphanumeric c = c.isAlphanum

variable (tables : CharTables)

def maxSanitizedUsernameLen : Nat := 64

/-- The word characters of a name. -/
def keptChars (username : String) : List Char :=
  username.toList.filter (fun c => tables.isAlphanumeric c || c = '_')

/-- The FNV hash of the bytes of a text. -/
def fnvHash (text : List Char) : UInt64 :=
  (text.flatMap String.utf8EncodeChar).foldl
    (fun h b => (h ^^^ b.toUInt64) * 0x100000001b3) 0xcbf29ce484222325

/-- The last hexadecimal digits of a number. -/
def hexDigits : Nat → Nat → List Char
  | 0, _ => []
  | width + 1, n => hexDigits width (n / 16) ++ [Nat.digitChar (n % 16)]

/-- The slice of the first bytes, unless it ends inside a character. -/
def sliceTo (n : Nat) (cs : List Char) : Option (List Char) :=
  if bytesOf (takeBytes n cs) = n then some (takeBytes n cs) else none

def sanitizeUsername (username : String) : Option String :=
  let sanitized := keptChars tables username
  if bytesOf sanitized ≤ maxSanitizedUsernameLen then some (String.ofList sanitized)
  else do
    let hash := fnvHash sanitized
    let prefixLen := maxSanitizedUsernameLen - 17
    let front ← sliceTo prefixLen sanitized
    let prefixEnd := if front = [] then prefixLen else bytesOf front
    let kept ← sliceTo prefixEnd sanitized
    some (String.ofList (kept ++ '_' :: hexDigits 16 hash.toNat))

/-! ## files -/

/-- `Path::join`, for a name with no separator in it. -/
def joinName (dir : List String) (name : String) : List String :=
  if name = "" then dir else dir ++ [name]

/-- The file that `atomic_write` renames. -/
def tmpPath (path : List String) : List String :=
  match path.getLast?.filter (fun name => name ∉ ["/", ".", ".."]) with
  | some name => path.dropLast ++ [name ++ ".tmp"]
  | none => joinName path ".tmp"

/-- The lock file, the persisted files and the temporary names of these. -/
def authFiles (cookieDir : List String) (sanitizedUsername : String) : List (List String) :=
  let files := (persistedAuthFiles sanitizedUsername).map (joinName cookieDir)
  joinName cookieDir (sanitizedUsername ++ ".lock") :: files ++ files.map tmpPath

/-! ## slices and digits -/

theorem sliceTo_eq_some {n : Nat} {cs front : List Char} :
    sliceTo n cs = some front ↔ ∃ back, cs = front ++ back ∧ bytesOf front = n := by
  unfold sliceTo
  constructor
  · intro h
    split at h
    · next hbytes =>
        cases h
        obtain ⟨back, hparts⟩ := takeBytes_isFront n cs
        exact ⟨back, hparts.symm, hbytes⟩
    · contradiction
  · rintro ⟨back, rfl, rfl⟩
    rw [takeBytes_append_of_le (Nat.le_refl _), takeBytes_of_le (Nat.le_refl _), if_pos rfl]

@[simp] theorem length_hexDigits (width n : Nat) : (hexDigits width n).length = width := by
  induction width generalizing n with
  | zero => rfl
  | succ width ih => rw [hexDigits, List.length_append, ih, List.length_singleton]

theorem mem_hexDigits {width n : Nat} {c : Char} (h : c ∈ hexDigits width n) :
    c.utf8Size = 1 ∧ c ∉ ['.', '/'] := by
  induction width generalizing n with
  | zero => cases h
  | succ width ih =>
      rcases List.mem_append.mp h with hfront | hlast
      · exact ih hfront
      · have hdigit : ∀ d < 16, (Nat.digitChar d).utf8Size = 1 ∧
            Nat.digitChar d ∉ ['.', '/'] := by decide
        rw [List.mem_singleton.mp hlast]
        exact hdigit _ (Nat.mod_lt _ (by decide))

theorem hexDigits_injective {width n m : Nat} (hn : n < 16 ^ width) (hm : m < 16 ^ width)
    (h : hexDigits width n = hexDigits width m) : n = m := by
  induction width generalizing n m with
  | zero => omega
  | succ width ih =>
      rw [Nat.pow_succ] at hn hm
      obtain ⟨hfront, hlast⟩ := List.append_inj h (by simp)
      have hdiv := ih (Nat.div_lt_of_lt_mul (by omega)) (Nat.div_lt_of_lt_mul (by omega)) hfront
      have hdigit : ∀ d < 16, ∀ e < 16, Nat.digitChar d = Nat.digitChar e → d = e := by decide
      have hmod := hdigit _ (Nat.mod_lt n (by decide)) _ (Nat.mod_lt m (by decide))
        (List.cons.inj hlast).1
      omega

/-! ## what becomes of a name -/

variable {tables} {u v : String} {cs short : List Char}

/-- The text is cut to this one, and the hash of it all is put behind. -/
def CutTo (cs short : List Char) : Prop :=
  maxSanitizedUsernameLen < bytesOf cs ∧ ∃ front back, cs = front ++ back ∧ bytesOf front = 47 ∧
    short = front ++ '_' :: hexDigits 16 (fnvHash cs).toNat

variable {name : String}

theorem sanitizeUsername_eq_some : sanitizeUsername tables u = some name ↔
    (bytesOf (keptChars tables u) ≤ maxSanitizedUsernameLen ∧
      name.toList = keptChars tables u) ∨ CutTo (keptChars tables u) name.toList := by
  unfold sanitizeUsername CutTo
  dsimp only
  split
  · next hfits =>
      simp only [Option.some.injEq, hfits, true_and, Nat.not_lt.mpr hfits, false_and, or_false,
        ← String.toList_inj, String.toList_ofList, eq_comm]
  · next hlong =>
      simp only [hlong, false_and, false_or, Nat.lt_of_not_le hlong, true_and,
        Option.bind_eq_bind, Option.bind_eq_some_iff, Option.some.injEq, ← String.toList_inj,
        String.toList_ofList]
      constructor
      · rintro ⟨front, hfront, kept, hkept, hname⟩
        obtain ⟨back, hparts, hbytes⟩ := sliceTo_eq_some.mp hfront
        have hne : front ≠ [] := by
          rintro rfl
          cases hbytes
        rw [if_neg hne, hbytes, hfront] at hkept
        cases hkept
        exact ⟨front, back, hparts, hbytes, hname.symm⟩
      · rintro ⟨front, back, hparts, hbytes, hname⟩
        have hne : front ≠ [] := by
          rintro rfl
          cases hbytes
        have hslice : sliceTo 47 (keptChars tables u) = some front :=
          sliceTo_eq_some.mpr ⟨back, hparts, hbytes⟩
        exact ⟨front, hslice, front, by rw [if_neg hne, hbytes, hslice], hname.symm⟩

theorem CutTo.bytesOf_eq (h : CutTo cs short) : bytesOf short = maxSanitizedUsernameLen := by
  obtain ⟨-, front, back, -, hbytes, rfl⟩ := h
  have hdigits : bytesOf (hexDigits 16 (fnvHash cs).toNat) = 16 := by
    rw [bytesOf_of_all_one (fun c hc => (mem_hexDigits hc).1), length_hexDigits]
  rw [bytesOf_append, bytesOf_cons, hbytes, hdigits]
  rfl

theorem byteLen_sanitizeUsername (h : sanitizeUsername tables u = some name) :
    byteLen name ≤ maxSanitizedUsernameLen := by
  rw [byteLen_eq]
  rcases sanitizeUsername_eq_some.mp h with ⟨hfits, hname⟩ | hcut
  · rw [hname]
    exact hfits
  · rw [hcut.bytesOf_eq]

theorem not_mem_keptChars {c : Char} (hascii : c.toNat < 128)
    (hword : (c.isAlphanum || c = '_') = false) : c ∉ keptChars tables u := by
  intro hmem
  have hkept := (List.mem_filter.mp hmem).2
  rw [tables.ascii c hascii, hword] at hkept
  cases hkept

theorem not_mem_sanitized (h : sanitizeUsername tables u = some name) {c : Char}
    (hc : c ∈ ['.', '/']) : c ∉ name.toList := by
  have hother : ∀ c ∈ ['.', '/'], c.toNat < 128 ∧ (c.isAlphanum || c = '_') = false ∧ c ≠ '_' := by
    simp
  obtain ⟨hascii, hword, hsign⟩ := hother c hc
  have hkept : c ∉ keptChars tables u := not_mem_keptChars hascii hword
  rcases sanitizeUsername_eq_some.mp h with ⟨-, hname⟩ | ⟨-, front, back, hparts, -, hname⟩
  · rw [hname]
    exact hkept
  · rw [hparts] at hkept
    rw [hname]
    intro hmem
    rcases List.mem_append.mp hmem with hfront | hrest
    · exact hkept (List.mem_append_left _ hfront)
    · rcases List.mem_cons.mp hrest with hfirst | hdigit
      · exact hsign hfirst
      · exact (mem_hexDigits hdigit).2 hc

theorem sanitized_ne (hkept : keptChars tables u ≠ keptChars tables v)
    (hhash : fnvHash (keptChars tables u) = fnvHash (keptChars tables v) →
      keptChars tables u = keptChars tables v)
    (hu : ¬ CutTo (keptChars tables u) (keptChars tables v))
    (hv : ¬ CutTo (keptChars tables v) (keptChars tables u)) {name name' : String}
    (h : sanitizeUsername tables u = some name) (h' : sanitizeUsername tables v = some name') :
    name ≠ name' := by
  rintro rfl
  rcases sanitizeUsername_eq_some.mp h with ⟨-, hname⟩ | hcut
  · rcases sanitizeUsername_eq_some.mp h' with ⟨-, hname'⟩ | hcut'
    · exact hkept (hname.symm.trans hname')
    · exact hv (hname ▸ hcut')
  · rcases sanitizeUsername_eq_some.mp h' with ⟨-, hname'⟩ | hcut'
    · exact hu (hname' ▸ hcut)
    · obtain ⟨-, front, -, -, -, hname⟩ := hcut
      obtain ⟨-, front', -, -, -, hname'⟩ := hcut'
      have hdigits := (List.append_inj' (hname.symm.trans hname') (by simp)).2
      have hsame := hexDigits_injective (by simpa using (fnvHash _).toNat_lt)
        (by simpa using (fnvHash _).toNat_lt) (List.cons.inj hdigits).2
      exact hkept (hhash (UInt64.toNat_inj.mp hsame))

/-! ## what tells the files apart -/

/-- What stands behind the name of an account in those of its files. -/
def fileExtensions : List String := [".lock", "", ".session", ".cache"]

/-- And in the temporary names; the lock file has none. -/
def extensions : List String := fileExtensions ++ fileExtensions.tail.map (· ++ ".tmp")

/-- The path of a file of that name, where no name stands for the directory. -/
def pathOf (dir : List String) (name : String) : List String :=
  if name = "" then dir else if name = ".tmp" then tmpPath dir else dir ++ [name]

theorem tmpPath_ne {dir : List String} : tmpPath dir ≠ dir ∧
    ∀ name, name ≠ ".tmp" → tmpPath dir ≠ dir ++ [name] := by
  unfold tmpPath
  cases hlast : dir.getLast?.filter (fun name => name ∉ ["/", ".", ".."]) with
  | none =>
      refine ⟨fun h => ?_, fun name hname h => hname ?_⟩
      · simpa [joinName] using congrArg List.length h
      · have hlast := List.cons.inj (List.append_cancel_left (h : dir ++ [".tmp"] = dir ++ [name]))
        exact hlast.1.symm
  | some last =>
      have hdir := (Option.filter_eq_some_iff.mp hlast).1
      have hparts := List.dropLast_append_getLast? last hdir
      refine ⟨fun h => ?_, fun name _ h => ?_⟩
      · have hsame := (List.append_inj' (h.trans hparts.symm) rfl).2
        have hlength := congrArg (fun s => s.toList.length) (List.cons.inj hsame).1
        simp at hlength
      · have hlength := congrArg List.length h
        have hlength' := congrArg List.length hparts
        simp only [List.length_append, List.length_singleton] at hlength hlength'
        omega

theorem pathOf_cases (dir : List String) (name : String) :
    (name = "" ∧ pathOf dir name = dir) ∨ (name = ".tmp" ∧ pathOf dir name = tmpPath dir) ∨
      (name ≠ ".tmp" ∧ pathOf dir name = dir ++ [name]) := by
  unfold pathOf
  split
  · next hempty => exact .inl ⟨hempty, rfl⟩
  · split
    · next htmp => exact .inr (.inl ⟨htmp, rfl⟩)
    · next htmp => exact .inr (.inr ⟨htmp, rfl⟩)

theorem pathOf_injective (dir : List String) : Function.Injective (pathOf dir) := by
  obtain ⟨hdir, hname⟩ := @tmpPath_ne dir
  intro name name' h
  rcases pathOf_cases dir name with ⟨rfl, hpath⟩ | ⟨rfl, hpath⟩ | ⟨hne, hpath⟩ <;>
    rcases pathOf_cases dir name' with ⟨rfl, hpath'⟩ | ⟨rfl, hpath'⟩ | ⟨hne', hpath'⟩ <;>
    replace h := hpath.symm.trans (h.trans hpath')
  · rfl
  · exact absurd h.symm hdir
  · simp at h
  · exact absurd h hdir
  · rfl
  · exact absurd h (hname _ hne')
  · simp at h
  · exact absurd h.symm (hname _ hne)
  · simpa using h

theorem takeWhile_extension {name extension : String} (hdot : '.' ∉ name.toList)
    (hmem : extension ∈ extensions) :
    (name ++ extension).toList.takeWhile (fun c => c ≠ '.') = name.toList := by
  have hextension : ∀ extension ∈ extensions,
      extension.toList.takeWhile (fun c => c ≠ '.') = [] := by decide
  rw [String.toList_append, List.takeWhile_append_of_pos, hextension _ hmem, List.append_nil]
  intro c hc
  exact decide_eq_true fun h => hdot (h ▸ hc)

theorem nodup_names (name : String) : (extensions.map (name ++ ·)).Nodup :=
  List.Nodup.map (fun e e' h => by simpa using h) (by decide)

theorem names_disjoint {name name' : String} (hne : name ≠ name') (hdot : '.' ∉ name.toList)
    (hdot' : '.' ∉ name'.toList) :
    (extensions.map (name ++ ·)).Disjoint (extensions.map (name' ++ ·)) := by
  intro file hfile hfile'
  obtain ⟨extension, hmem, rfl⟩ := List.mem_map.mp hfile
  obtain ⟨extension', hmem', heq⟩ := List.mem_map.mp hfile'
  have hname := takeWhile_extension hdot hmem
  rw [← heq, takeWhile_extension hdot' hmem'] at hname
  exact hne (String.toList_inj.mp hname.symm)

variable {dir : List String}

theorem joinName_eq {file : String} (h : file ≠ ".tmp") : joinName dir file = pathOf dir file := by
  unfold joinName pathOf
  rw [if_neg h]

theorem tmpPath_joinName {file : String} (h : file ∉ ["/", ".", ".."]) :
    tmpPath (joinName dir file) = pathOf dir (file ++ ".tmp") := by
  by_cases hempty : file = ""
  · subst hempty
    rfl
  · have hlast : (dir ++ [file]).getLast?.filter (fun name => name ∉ ["/", ".", ".."]) =
        some file := by
      rw [List.getLast?_append, List.getLast?_singleton, Option.some_or, Option.filter_some,
        if_pos (decide_eq_true h)]
    have hpath : pathOf dir (file ++ ".tmp") = dir ++ [file ++ ".tmp"] := by
      simp [pathOf, hempty]
    rw [joinName, if_neg hempty, tmpPath, hlast, List.dropLast_concat, hpath]

/-- With its extension a name is none that has a meaning of its own. -/
theorem name_append_ne {name extension : String} (hname : ∀ c ∈ ['.', '/'], c ∉ name.toList)
    (hextension : extension ∈ fileExtensions) : name ++ extension ∉ ["/", ".", "..", ".tmp"] := by
  intro hmem
  have hfront := takeWhile_extension (hname '.' (by decide))
    (List.mem_append_left (fileExtensions.tail.map (· ++ ".tmp")) hextension)
  have hcases : ∀ text ∈ ["/", ".", "..", ".tmp"],
      text.toList.takeWhile (fun c => c ≠ '.') = ['/'] ∨
      text.toList.takeWhile (fun c => c ≠ '.') = [] ∧ text ∉ fileExtensions := by decide
  rcases hcases _ hmem with hslash | ⟨hempty, hnone⟩
  · exact hname '/' (by decide) (by rw [← hfront, hslash]; exact List.mem_singleton.mpr rfl)
  · have hnothing : name = "" := String.toList_inj.mp (hfront.symm.trans hempty)
    rw [hnothing, String.empty_append] at hnone
    exact hnone hextension

theorem authFiles_eq (hname : ∀ c ∈ ['.', '/'], c ∉ name.toList) :
    authFiles dir name = (extensions.map (name ++ ·)).map (pathOf dir) := by
  have hfiles : authFiles dir name =
      fileExtensions.map (fun extension => joinName dir (name ++ extension)) ++
        fileExtensions.tail.map (fun extension => tmpPath (joinName dir (name ++ extension))) := by
    simp [authFiles, persistedAuthFiles, fileExtensions]
  have hjoin : ∀ extension ∈ fileExtensions,
      joinName dir (name ++ extension) = pathOf dir (name ++ extension) := by
    intro extension h
    exact joinName_eq fun heq => name_append_ne hname h (by simp [heq])
  have htmp : ∀ extension ∈ fileExtensions.tail,
      tmpPath (joinName dir (name ++ extension)) = pathOf dir (name ++ (extension ++ ".tmp")) := by
    intro extension h
    rw [tmpPath_joinName, String.append_assoc]
    exact fun hmem => name_append_ne hname (List.mem_of_mem_tail h)
      (List.mem_append_left [".tmp"] hmem)
  rw [hfiles, List.map_congr_left hjoin, List.map_congr_left htmp]
  simp [extensions, Function.comp_def]

/-! ## two accounts -/

/-- The name can be cut, if it has to be. -/
def Cuttable (cs : List Char) : Prop :=
  bytesOf cs ≤ maxSanitizedUsernameLen ∨ ∃ front back, cs = front ++ back ∧ bytesOf front = 47

theorem sanitizeUsername_isSome (h : Cuttable (keptChars tables u)) :
    ∃ name, sanitizeUsername tables u = some name := by
  by_cases hfits : bytesOf (keptChars tables u) ≤ maxSanitizedUsernameLen
  · exact ⟨String.ofList (keptChars tables u),
      sanitizeUsername_eq_some.mpr (.inl ⟨hfits, String.toList_ofList⟩)⟩
  · obtain ⟨front, back, hparts, hbytes⟩ := h.resolve_left hfits
    exact ⟨String.ofList (front ++ '_' :: hexDigits 16 (fnvHash (keptChars tables u)).toNat),
      sanitizeUsername_eq_some.mpr (.inr ⟨Nat.lt_of_not_le hfits, front, back, hparts, hbytes,
        String.toList_ofList⟩)⟩

/-- The names of two accounts are made, are short, and lead to files that are all different. -/
def Apart (tables : CharTables) (cookieDir : List String) (u v : String) : Prop :=
  ∃ name name', sanitizeUsername tables u = some name ∧ sanitizeUsername tables v = some name' ∧
    byteLen name ≤ maxSanitizedUsernameLen ∧ byteLen name' ≤ maxSanitizedUsernameLen ∧
      (authFiles cookieDir name ++ authFiles cookieDir name').Nodup

/-- The hash tells these two texts apart. -/
def HashTells (cs cs' : List Char) : Prop := fnvHash cs = fnvHash cs' → cs = cs'

/-- **Accounts that differ in what is kept of their names have no file in common**, if none of the
two is kept as what the other is cut to. -/
theorem accounts_apart (tables : CharTables) (cookieDir : List String) (u v : String)
    (hu : Cuttable (keptChars tables u)) (hv : Cuttable (keptChars tables v))
    (hkept : keptChars tables u ≠ keptChars tables v)
    (hhash : HashTells (keptChars tables u) (keptChars tables v))
    (hcut : ¬ CutTo (keptChars tables u) (keptChars tables v))
    (hcut' : ¬ CutTo (keptChars tables v) (keptChars tables u)) :
    Apart tables cookieDir u v := by
  obtain ⟨name, h⟩ := sanitizeUsername_isSome hu
  obtain ⟨name', h'⟩ := sanitizeUsername_isSome hv
  have hne := sanitized_ne hkept hhash hcut hcut' h h'
  have hname : ∀ c ∈ ['.', '/'], c ∉ name.toList := fun c => not_mem_sanitized h
  have hother : ∀ c ∈ ['.', '/'], c ∉ name'.toList := fun c => not_mem_sanitized h'
  refine ⟨name, name', h, h', byteLen_sanitizeUsername h, byteLen_sanitizeUsername h', ?_⟩
  rw [authFiles_eq hname, authFiles_eq hother, ← List.map_append]
  refine List.Nodup.map (pathOf_injective cookieDir) (List.nodup_append'.mpr
    ⟨nodup_names name, nodup_names name', ?_⟩)
  exact names_disjoint hne (hname '.' (by decide)) (hother '.' (by decide))

/-- Letters and digits of ASCII, and the letters of Latin-1 after `À`. -/
def latinTables : CharTables where
  isAlphanumeric c := c.isAlphanum || (0xC0 ≤ c.toNat && c.toNat ≤ 0xFF && c ≠ '×' && c ≠ '÷')
  ascii c h := by
    have hlatin : (0xC0 ≤ c.toNat : Bool) = false := by simp; omega
    rw [hlatin]
    simp

/-- Two mail addresses keep their files apart. -/
theorem accounts_apart_users :
    Apart latinTables ["/", "data"] "jane@icloud.com" "john@icloud.com" :=
  accounts_apart latinTables ["/", "data"] "jane@icloud.com" "john@icloud.com"
    (.inl (by decide)) (.inl (by decide)) (by decide) (by unfold HashTells; decide +kernel)
    (fun h => absurd h.1 (by decide)) (fun h => absurd h.1 (by decide))

theorem not_apart_of_same {cookieDir : List String}
    (hsame : sanitizeUsername tables u = sanitizeUsername tables v) :
    ¬ Apart tables cookieDir u v := by
  rintro ⟨name, name', h, h', -, -, hnodup⟩
  rw [Option.some.inj (h.symm.trans (hsame.trans h'))] at hnodup
  exact List.disjoint_of_nodup_append hnodup List.mem_cons_self List.mem_cons_self

/-- These are names of two accounts that are not kept apart, whatever the hash does. -/
def Meet (u v : String) : Prop :=
  u ≠ v ∧ HashTells (keptChars latinTables u) (keptChars latinTables v) ∧
    ¬ Apart latinTables ["/", "data"] u v

def longName : String := String.ofList (List.replicate 65 'a')

def cutName : String := String.ofList (List.replicate 47 'a') ++ "_8087e9a889f8a14c"

def accentedName : String := String.ofList (List.replicate 33 'é')

/-- A dot in the name is dropped; a name of 64 characters may be what a longer one is cut to; and
the cut may fall inside a character. -/
theorem not_accounts_apart :
    Meet "j.doe@icloud.com" "jdoe@icloud.com" ∧ Meet longName cutName ∧
      Meet accentedName "jane@icloud.com" := by
  refine ⟨⟨by decide, fun _ => by decide, not_apart_of_same (by decide)⟩,
    ⟨by decide, by unfold HashTells; decide +kernel, not_apart_of_same (by decide +kernel)⟩,
    ⟨by decide, by unfold HashTells; decide +kernel, ?_⟩⟩
  rintro ⟨name, -, h, -⟩
  have hpanics : sanitizeUsername latinTables accentedName = none := by decide +kernel
  rw [hpanics] at h
  cases h

end Kei.Auth
