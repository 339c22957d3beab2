import Kei.Download.Paths
import Mathlib.Data.List.Basic

/-!
# Kei.Download.CleanNames

What cleaning does to a file name: every character is replaced on its own, and
a name of more than 255 bytes is cut before its extension.
-/

namespace Str

/-! ## bytes of a list of characters -/

/-- The bytes of the characters. -/
def bytesOf (l : List Char) : Nat := (l.map Char.utf8Size).sum

@[simp] theorem bytesOf_nil : bytesOf [] = 0 := rfl

@[simp] theorem bytesOf_cons (c : Char) (l : List Char) :
    bytesOf (c :: l) = c.utf8Size + bytesOf l := by simp [bytesOf]

@[simp] theorem bytesOf_append (l l' : List Char) :
    bytesOf (l ++ l') = bytesOf l + bytesOf l' := by simp [bytesOf]

theorem byteLen_eq (s : String) : byteLen s = bytesOf s.toList := rfl

theorem length_le_bytesOf (l : List Char) : l.length ≤ bytesOf l := by
  induction l with
  | nil => simp
  | cons c l ih =>
      have := c.utf8Size_pos
      rw [List.length_cons, bytesOf_cons]
      omega

variable {l : List Char}

theorem bytesOf_of_all_one (h : ∀ c ∈ l, c.utf8Size = 1) : bytesOf l = l.length := by
  induction l with
  | nil => rfl
  | cons c l ih =>
      rw [bytesOf_cons, h c List.mem_cons_self, ih fun d hd => h d (List.mem_cons_of_mem c hd),
        List.length_cons, Nat.add_comm]

theorem takeBytes_of_le {n : Nat} (h : bytesOf l ≤ n) : takeBytes n l = l := by
  induction l generalizing n with
  | nil => rfl
  | cons c l ih =>
      rw [bytesOf_cons] at h
      rw [takeBytes, if_pos (by omega), ih (by omega)]

theorem takeBytes_append_of_le {n : Nat} (h : n ≤ bytesOf l) (l' : List Char) :
    takeBytes n (l ++ l') = takeBytes n l := by
  induction l generalizing n with
  | nil =>
      obtain rfl : n = 0 := Nat.le_zero.mp h
      cases l' with
      | nil => rfl
      | cons c l' =>
          have := c.utf8Size_pos
          have hc : ¬ c.utf8Size ≤ 0 := by omega
          simp only [List.nil_append, takeBytes, if_neg hc]
  | cons c l ih =>
      rw [bytesOf_cons] at h
      rw [List.cons_append, takeBytes, takeBytes]
      split
      · rw [ih (by omega)]
      · rfl

/-! ## the last separator -/

theorem dropWhile_append_cons {p : Char → Bool} {l : List Char} {c : Char}
    (h : ∀ d ∈ l, p d = true) (hc : p c = false) (l' : List Char) :
    (l ++ c :: l').dropWhile p = c :: l' ∧ (l ++ c :: l').takeWhile p = l := by
  induction l with
  | nil => simp [hc]
  | cons d l ih =>
      have hd := h d List.mem_cons_self
      obtain ⟨hdrop, htake⟩ := ih fun e he => h e (List.mem_cons_of_mem d he)
      simp [hd, hdrop, htake]

theorem rsplitOnce_of_not_mem {sep : Char} {s : String} {front back : List Char}
    (hs : s.toList = front ++ sep :: back) (hback : sep ∉ back) :
    rsplitOnce sep s = some (String.ofList front, String.ofList back) := by
  have hrev : s.toList.reverse = back.reverse ++ sep :: front.reverse := by
    rw [hs]
    simp
  obtain ⟨hdrop, htake⟩ := @dropWhile_append_cons (· ≠ sep) back.reverse sep
    (fun d hd => by
      have hd := List.mem_reverse.mp hd
      exact decide_eq_true fun h => hback (h ▸ hd)) (by simp) front.reverse
  unfold rsplitOnce
  rw [hrev, hdrop, htake]
  simp

theorem toList_of_rsplitOnce {sep : Char} {s stem ext : String}
    (h : rsplitOnce sep s = some (stem, ext)) :
    s.toList = stem.toList ++ sep :: ext.toList ∧ sep ∉ ext.toList := by
  unfold rsplitOnce at h
  split at h
  · cases h
  · next front hdrop =>
      obtain ⟨rfl, rfl⟩ := h
      have hnot := List.head?_dropWhile_not (· ≠ sep) s.toList.reverse
      rw [hdrop] at hnot
      have hsep := not_not.mp (of_decide_eq_false hnot)
      have hjoin := List.takeWhile_append_dropWhile (p := (· ≠ sep)) (l := s.toList.reverse)
      rw [hdrop, hsep] at hjoin
      refine ⟨?_, fun hmem => ?_⟩
      · have hboth := congrArg List.reverse hjoin
        rw [List.reverse_reverse] at hboth
        rw [String.toList_ofList, String.toList_ofList]
        simpa using hboth.symm
      · rw [String.toList_ofList, List.mem_reverse] at hmem
        have hall := List.all_eq_true.mp List.all_takeWhile sep hmem
        exact of_decide_eq_true hall rfl

theorem takeBytes_isFront (n : Nat) (l : List Char) : takeBytes n l <+: l := by
  induction l generalizing n with
  | nil => exact List.prefix_rfl
  | cons c l ih =>
      rw [takeBytes]
      split
      · exact (List.prefix_cons_inj c).mpr (ih _)
      · exact List.nil_prefix

/-- A cut leaves at most the limit, and at most three bytes less where there are enough. -/
theorem bytesOf_takeBytes (n : Nat) (l : List Char) :
    bytesOf (takeBytes n l) ≤ n ∧ (n ≤ bytesOf l → n ≤ bytesOf (takeBytes n l) + 3) := by
  induction l generalizing n with
  | nil =>
      simp only [takeBytes, bytesOf_nil]
      omega
  | cons c l ih =>
      have hfour := c.utf8Size_le_four
      rw [takeBytes]
      split
      · have hrest := ih (n - c.utf8Size)
        simp only [bytesOf_cons]
        omega
      · simp only [bytesOf_nil, bytesOf_cons]
        omega

end Str

namespace Kei.Download

open Str

/-! ## cleaning -/

/-- The character that stands for `c` in a clean name. -/
def cleanChar (c : Char) : Char := if isInvalid c then '_' else c

/-- The characters of a name cleaned, before the name is cut. -/
def cleanChars (l : List Char) : List Char := l.map cleanChar

@[simp] theorem cleanChars_nil : cleanChars [] = [] := rfl

@[simp] theorem cleanChars_cons (c : Char) (l : List Char) :
    cleanChars (c :: l) = cleanChar c :: cleanChars l := rfl

@[simp] theorem cleanChars_append (l l' : List Char) :
    cleanChars (l ++ l') = cleanChars l ++ cleanChars l' := by simp [cleanChars]

@[simp] theorem cleanChar_dot : cleanChar '.' = '.' := by decide

@[simp] theorem cleanChar_hyphen : cleanChar '-' = '-' := by decide

theorem cleanChar_eq_dot {c : Char} (h : cleanChar c = '.') : c = '.' := by
  unfold cleanChar at h
  split at h
  · contradiction
  · exact h

theorem dot_mem_cleanChars {l : List Char} : '.' ∈ cleanChars l ↔ '.' ∈ l := by
  unfold cleanChars
  rw [List.mem_map]
  constructor
  · rintro ⟨c, hc, h⟩
    exact cleanChar_eq_dot h ▸ hc
  · exact fun h => ⟨'.', h, cleanChar_dot⟩

theorem cleanChar_ne_slash (c : Char) : cleanChar c ≠ '/' := by
  unfold cleanChar
  split
  · decide
  · next h =>
      rintro rfl
      exact h (by decide)

theorem slash_not_mem_cleanChars (l : List Char) : '/' ∉ cleanChars l := by
  unfold cleanChars
  rw [List.mem_map]
  rintro ⟨c, -, h⟩
  exact cleanChar_ne_slash c h

theorem cleanChars_eq_self {l : List Char} (h : l.any isInvalid = false) : cleanChars l = l := by
  rw [List.any_eq_false] at h
  unfold cleanChars
  conv_rhs => rw [← List.map_id l]
  refine List.map_congr_left fun c hc => ?_
  rw [cleanChar, if_neg (h c hc), id_eq]

theorem bytesOf_cleanChars_le (l : List Char) : bytesOf (cleanChars l) ≤ bytesOf l := by
  induction l with
  | nil => simp
  | cons c l ih =>
      rw [cleanChars_cons, bytesOf_cons, bytesOf_cons]
      have hc : (cleanChar c).utf8Size ≤ c.utf8Size := by
        unfold cleanChar
        split
        · exact c.utf8Size_pos
        · exact Nat.le_refl _
      omega

variable {name : String}

theorem cleanFilename_of_le (hne : name ≠ "")
    (hlen : bytesOf (cleanChars name.toList) ≤ maxFilenameBytes) :
    cleanFilename name = String.ofList (cleanChars name.toList) := by
  unfold cleanFilename
  rw [if_neg hne]
  split
  · next h =>
      rw [Bool.and_eq_true, Bool.not_eq_true'] at h
      rw [cleanChars_eq_self h.2, String.ofList_toList]
  · have hbytes : byteLen (String.ofList (cleanChars name.toList)) ≤ maxFilenameBytes := by
      rw [byteLen_eq, String.toList_ofList]
      exact hlen
    exact if_pos hbytes

/-- A longer one is cut, before its extension if this leaves room for it. -/
theorem cleanFilename_cut (hne : name ≠ "")
    (hlen : maxFilenameBytes < bytesOf (cleanChars name.toList)) :
    cleanFilename name =
      match rsplitOnce '.' (String.ofList (cleanChars name.toList)) with
      | some (stem, ext) =>
          if byteLen ("." ++ ext) < maxFilenameBytes then
            floorBytes (maxFilenameBytes - byteLen ("." ++ ext)) stem ++ "." ++ ext
          else floorBytes maxFilenameBytes (String.ofList (cleanChars name.toList))
      | none => floorBytes maxFilenameBytes (String.ofList (cleanChars name.toList)) := by
  have hraw : ¬ (byteLen name ≤ maxFilenameBytes && !name.toList.any isInvalid) = true := by
    rw [Bool.and_eq_true, decide_eq_true_eq, byteLen_eq]
    have := bytesOf_cleanChars_le name.toList
    omega
  have hcleaned : ¬ byteLen (String.ofList (cleanChars name.toList)) ≤ maxFilenameBytes := by
    rw [byteLen_eq, String.toList_ofList]
    omega
  unfold cleanFilename
  rw [if_neg hne, if_neg hraw]
  exact if_neg hcleaned

/-- The bytes that the limit leaves for what stands before an extension. -/
def roomBefore (ext : List Char) : Nat := maxFilenameBytes - (1 + bytesOf (cleanChars ext))

theorem cleanFilename_of_lt {stem ext : List Char} (hname : name.toList = stem ++ '.' :: ext)
    (hdot : '.' ∉ ext) (hext : 1 + bytesOf (cleanChars ext) < maxFilenameBytes)
    (hlen : maxFilenameBytes < bytesOf (cleanChars name.toList)) :
    cleanFilename name =
      String.ofList (takeBytes (roomBefore ext) (cleanChars stem) ++ '.' :: cleanChars ext) := by
  have hne : name ≠ "" := by
    rintro rfl
    simp at hname
  have hsplit : rsplitOnce '.' (String.ofList (cleanChars name.toList)) =
      some (String.ofList (cleanChars stem), String.ofList (cleanChars ext)) := by
    refine rsplitOnce_of_not_mem ?_ (fun h => hdot (dot_mem_cleanChars.mp h))
    rw [String.toList_ofList, hname]
    simp
  have hdotted : byteLen ("." ++ String.ofList (cleanChars ext)) =
      1 + bytesOf (cleanChars ext) := by
    rw [byteLen_eq, String.toList_append, String.toList_ofList, bytesOf_append]
    simp [bytesOf]
    rfl
  rw [cleanFilename_cut hne hlen, hsplit]
  dsimp only
  rw [if_pos (by rw [hdotted]; exact hext), hdotted, ← String.toList_inj]
  simp [floorBytes, roomBefore]

/-- Where what stands before an extension fills its room, what follows it is cut off. -/
theorem cleanFilename_of_full {name : String} {front back ext : List Char}
    (hname : name.toList = front ++ back ++ '.' :: ext) (hdot : '.' ∉ ext)
    (hext : 1 + bytesOf (cleanChars ext) < maxFilenameBytes)
    (hfull : roomBefore ext ≤ bytesOf (cleanChars front)) (hback : back ≠ []) :
    cleanFilename name =
      String.ofList (takeBytes (roomBefore ext) (cleanChars front) ++ '.' :: cleanChars ext) := by
  have hpos : 0 < bytesOf (cleanChars back) := by
    have := length_le_bytesOf (cleanChars back)
    have := List.length_pos_of_ne_nil hback
    rw [cleanChars, List.length_map] at *
    omega
  rw [cleanFilename_of_lt hname hdot hext ?_, cleanChars_append, takeBytes_append_of_le hfull]
  rw [hname, cleanChars_append, cleanChars_append, cleanChars_cons, bytesOf_append, bytesOf_append,
    bytesOf_cons, cleanChar_dot, show ('.' : Char).utf8Size = 1 from rfl]
  unfold roomBefore at hfull
  omega

/-! ## suffixes -/

theorem insertBeforeExtension_eq (path : String) :
    ∃ pre post, pre ++ post = path.toList ∧ ∀ suffix,
      (insertBeforeExtension path suffix).toList = pre ++ suffix.toList ++ post := by
  unfold insertBeforeExtension
  cases hsplit : rsplitOnce '.' path with
  | none => exact ⟨path.toList, [], by simp, fun suffix => by simp⟩
  | some parts =>
      obtain ⟨stem, ext⟩ := parts
      refine ⟨stem.toList, '.' :: ext.toList, (toList_of_rsplitOnce hsplit).1.symm,
        fun suffix => ?_⟩
      rw [String.toList_append, String.toList_append, String.toList_append]
      simp

theorem insertBeforeExtension_of_dot {path : String} {stem ext : List Char}
    (hpath : path.toList = stem ++ '.' :: ext) (hdot : '.' ∉ ext) (suffix : String) :
    (insertBeforeExtension path suffix).toList = stem ++ suffix.toList ++ '.' :: ext := by
  unfold insertBeforeExtension
  rw [rsplitOnce_of_not_mem hpath hdot]
  simp

end Kei.Download
