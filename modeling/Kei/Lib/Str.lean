import Mathlib.Algebra.Ring.Nat

/-!
# Kei.Lib.Str

The string operations of the source language that the model uses, on `String`.

Each one is written over the characters of its argument, and each has a lemma
that says what it does to `toList`, so that proofs work with character lists
and never with encodings.  This module depends only on the Lean core library.
-/

namespace Str

/-- Unicode's White_Space property. -/
def isWhitespace (c : Char) : Bool :=
  let n := c.toNat
  (0x09 ≤ n && n ≤ 0x0D) || n == 0x20 || n == 0x85 || n == 0xA0 || n == 0x1680
    || (0x2000 ≤ n && n ≤ 0x200A) || n == 0x2028 || n == 0x2029 || n == 0x202F
    || n == 0x205F || n == 0x3000

/-! ## trimming -/

/-- Drop the characters satisfying `p` from the end of a list. -/
def dropEndWhile (p : Char → Bool) (l : List Char) : List Char :=
  (l.reverse.dropWhile p).reverse

/-- `str::trim`: the string without leading and trailing white space. -/
def trim (s : String) : String :=
  String.ofList (dropEndWhile isWhitespace (s.toList.dropWhile isWhitespace))

/-- No white space at the front. -/
def NoLead (l : List Char) : Prop := ∀ c, l.head? = some c → isWhitespace c = false

/-- No white space at the end. -/
def NoTrail (l : List Char) : Prop := ∀ c, l.getLast? = some c → isWhitespace c = false

instance (l : List Char) : Decidable (NoLead l) :=
  decidable_of_iff (l.head?.all (fun c => !isWhitespace c) = true) (by cases l <;> simp [NoLead])

instance (l : List Char) : Decidable (NoTrail l) :=
  decidable_of_iff (l.getLast?.all (fun c => !isWhitespace c) = true)
    (by simp [NoTrail, Option.all_eq_true])

theorem noLead_dropWhile (l : List Char) : NoLead (l.dropWhile isWhitespace) := by
  intro c hc
  have h := List.head?_dropWhile_not isWhitespace l
  rw [hc] at h
  simpa using h

theorem noTrail_dropEndWhile (l : List Char) : NoTrail (dropEndWhile isWhitespace l) := by
  intro c hc
  rw [dropEndWhile, List.getLast?_reverse] at hc
  exact noLead_dropWhile l.reverse c hc

variable {l : List Char}

theorem noLead_dropEndWhile {p : Char → Bool} (h : NoLead l) : NoLead (dropEndWhile p l) := by
  intro c hc
  obtain ⟨pre, hpre⟩ : ∃ suf, dropEndWhile p l ++ suf = l := by
    have := List.takeWhile_append_dropWhile (p := p) (l := l.reverse)
    refine ⟨(l.reverse.takeWhile p).reverse, ?_⟩
    rw [dropEndWhile, ← List.reverse_append, this, List.reverse_reverse]
  refine h c ?_
  rw [← hpre, List.head?_append, hc]
  rfl

theorem dropWhile_of_noLead (h : NoLead l) : l.dropWhile isWhitespace = l := by
  cases l with
  | nil => rfl
  | cons c l => rw [List.dropWhile_cons, h c rfl]; rfl

theorem dropEndWhile_of_noTrail (h : NoTrail l) : dropEndWhile isWhitespace l = l := by
  have hr : NoLead l.reverse := by
    intro c hc
    rw [List.head?_reverse] at hc
    exact h c hc
  rw [dropEndWhile, dropWhile_of_noLead hr, List.reverse_reverse]

theorem noLead_trim (s : String) : NoLead (trim s).toList := by
  rw [trim, String.toList_ofList]
  exact noLead_dropEndWhile (noLead_dropWhile _)

theorem noTrail_trim (s : String) : NoTrail (trim s).toList := by
  rw [trim, String.toList_ofList]
  exact noTrail_dropEndWhile _

/-- A string without white space at its ends is not changed by trimming. -/
theorem trim_of_noLead_noTrail {s : String} (hl : NoLead s.toList) (ht : NoTrail s.toList) :
    trim s = s := by
  rw [trim, dropWhile_of_noLead hl, dropEndWhile_of_noTrail ht, String.ofList_toList]

theorem length_dropEndWhile_le (p : Char → Bool) (l : List Char) :
    (dropEndWhile p l).length ≤ l.length := by
  rw [dropEndWhile, List.length_reverse]
  have h := (List.dropWhile_sublist (l := l.reverse) p).length_le
  rwa [List.length_reverse] at h

theorem length_trim_lt {s : String} (h : ¬ NoLead s.toList) :
    (trim s).toList.length < s.toList.length := by
  rw [trim, String.toList_ofList]
  cases hs : s.toList with
  | nil => exact absurd (by simp [NoLead, hs]) h
  | cons c l =>
      have hc : isWhitespace c = true := by
        rw [hs] at h
        simpa [NoLead] using h
      have hdrop : (c :: l).dropWhile isWhitespace = l.dropWhile isWhitespace := by
        rw [List.dropWhile_cons, hc]; rfl
      rw [hdrop, List.length_cons]
      have hl := (List.dropWhile_sublist (l := l) isWhitespace).length_le
      have he := length_dropEndWhile_le isWhitespace (l.dropWhile isWhitespace)
      omega

variable {c : Char}

theorem noTrail_cons (hl : l ≠ []) : NoTrail (c :: l) ↔ NoTrail l := by
  cases l with
  | nil => contradiction
  | cons d l => simp [NoTrail, List.getLast?_cons_cons]

/-! ## prefixes and comparison -/

/-- `str::strip_prefix` of one character. -/
def stripPrefix (s : String) (c : Char) : Option String :=
  match s.toList with
  | [] => none
  | d :: l => if d = c then some (String.ofList l) else none

/-- `str::starts_with` of one character. -/
def startsWith (s : String) (c : Char) : Bool := s.toList.head? == some c

theorem stripPrefix_eq_some {s r : String} :
    stripPrefix s c = some r ↔ s.toList = c :: r.toList := by
  unfold stripPrefix
  cases s.toList with
  | nil => simp
  | cons d l =>
      simp only [List.cons.injEq]
      by_cases h : d = c
      · simp only [h, if_true, Option.some.injEq, true_and]
        constructor
        · intro h'; rw [← h', String.toList_ofList]
        · intro h'; rw [h', String.ofList_toList]
      · simp [h]

theorem stripPrefix_eq_none {s : String} : stripPrefix s c = none ↔ startsWith s c = false := by
  unfold stripPrefix startsWith
  cases s.toList with
  | nil => simp
  | cons d l =>
      by_cases h : d = c
      · simp [h]
      · simp [h]

/-- `str::eq_ignore_ascii_case`. -/
def eqIgnoreAsciiCase (s t : String) : Bool :=
  s.toList.map Char.toLower == t.toList.map Char.toLower

/-- `str::contains` of one character. -/
def containsChar (s : String) (c : Char) : Bool := s.toList.contains c

theorem isWhitespace_toLower (c : Char) : isWhitespace c.toLower = isWhitespace c := by
  unfold Char.toLower
  split
  · next h =>
      have hlo : 0x41 ≤ c.val.toNat := UInt32.le_iff_toNat_le.mp h.1
      have hhi : c.val.toNat ≤ 0x5A := UInt32.le_iff_toNat_le.mp h.2
      have hv : (c.val + ('a'.val - 'A'.val)).toNat = c.val.toNat + 0x20 := by
        rw [UInt32.toNat_add]
        have hd : ('a'.val - 'A'.val).toNat = 0x20 := by decide
        omega
      simp only [isWhitespace, Char.toNat, hv]
      grind
  · rfl

/-- Strings that differ in the case of their letters agree on white space at the front. -/
theorem noLead_of_eqIgnoreAsciiCase {s t : String} (h : eqIgnoreAsciiCase s t = true)
    (ht : NoLead t.toList) : NoLead s.toList := by
  rw [eqIgnoreAsciiCase, beq_iff_eq] at h
  intro c hc
  have hhead : t.toList.head?.map Char.toLower = some c.toLower := by
    rw [← List.head?_map, ← h, List.head?_map, hc, Option.map_some]
  obtain ⟨d, hd, hdc⟩ := Option.map_eq_some_iff.mp hhead
  rw [← isWhitespace_toLower, ← hdc, isWhitespace_toLower]
  exact ht d hd

/-! ## cutting, searching and replacing -/

/-- `str::len`: the number of bytes. -/
def byteLen (s : String) : Nat := (s.toList.map Char.utf8Size).sum

/-- The longest front of at most `n` bytes. -/
def takeBytes : Nat → List Char → List Char
  | _, [] => []
  | n, c :: l => if c.utf8Size ≤ n then c :: takeBytes (n - c.utf8Size) l else []

/-- `s[..s.floor_char_boundary(n)]`. -/
def floorBytes (n : Nat) (s : String) : String := String.ofList (takeBytes n s.toList)

/-- `str::rsplit_once`: what stands before and after the last `sep`. -/
def rsplitOnce (sep : Char) (s : String) : Option (String × String) :=
  match s.toList.reverse.dropWhile (· ≠ sep) with
  | [] => none
  | _ :: front =>
      some (String.ofList front.reverse,
        String.ofList (s.toList.reverse.takeWhile (· ≠ sep)).reverse)

/-- The pieces of a list between the occurrences of `sep`. -/
def splitList (sep : Char) : List Char → List (List Char)
  | [] => [[]]
  | c :: l =>
      if c = sep then
        [] :: splitList sep l
      else
        match splitList sep l with
        | [] => [[c]]
        | piece :: pieces => (c :: piece) :: pieces

/-- `str::split` at one character. -/
def split (s : String) (sep : Char) : List String := (splitList sep s.toList).map String.ofList

def containsFrom [DecidableEq α] (pattern : List α) : List α → Bool
  | [] => pattern.isEmpty
  | c :: l => pattern.isPrefixOf (c :: l) || containsFrom pattern l

/-- `str::contains`. -/
def contains (s pattern : String) : Bool := containsFrom pattern.toList s.toList

/-- Replace from the left; the first `skip` characters belong to a match already replaced. -/
def replaceFrom [DecidableEq α] (pattern new : List α) : Nat → List α → List α
  | _, [] => []
  | skip + 1, _ :: l => replaceFrom pattern new skip l
  | 0, c :: l =>
      if pattern.isPrefixOf (c :: l) then
        new ++ replaceFrom pattern new (pattern.length - 1) l
      else
        c :: replaceFrom pattern new 0 l

/-- `str::replace`, of a pattern that is not empty. -/
def replace (s pattern new : String) : String :=
  String.ofList (replaceFrom pattern.toList new.toList 0 s.toList)

def asciiLower (s : String) : String := String.ofList (s.toList.map Char.toLower)

def asciiUpper (s : String) : String := String.ofList (s.toList.map Char.toUpper)

/-- `char::is_control`. -/
def isControl (c : Char) : Bool := c.toNat ≤ 0x1F || (0x7F ≤ c.toNat && c.toNat ≤ 0x9F)

/-- The pieces between white space. -/
def splitWhitespace (s : String) : List String :=
  ((s.toList.splitOnP isWhitespace).filter (· ≠ [])).map String.ofList

/-- `str::split_once`: what stands before and after the first `sep`. -/
def splitOnce (sep : Char) (s : String) : Option (String × String) :=
  match s.toList.dropWhile (· ≠ sep) with
  | [] => none
  | _ :: back => some (String.ofList (s.toList.takeWhile (· ≠ sep)), String.ofList back)

/-- `str::parse::<u64>`. -/
def parseU64 (s : String) : Option Nat :=
  let digits := if s.toList.head? = some '+' then s.toList.tail else s.toList
  if digits ≠ [] ∧ digits.all Char.isDigit then
    let n := digits.foldl (fun n c => 10 * n + (c.toNat - '0'.toNat)) 0
    if n < 2 ^ 64 then some n else none
  else
    none

/-! ## decimal numbers -/

theorem toList_toString (n : Nat) : (toString n).toList = Nat.toDigits 10 n := by
  exact Nat.toList_repr

theorem isDigit_of_mem_toString {n : Nat} (h : c ∈ (toString n).toList) : c.isDigit = true := by
  rw [toList_toString] at h
  exact Nat.isDigit_of_mem_toDigits (by simp) (by simp) h

theorem parseU64_toString {n : Nat} (h : n < 2 ^ 64) : parseU64 (toString n) = some n := by
  have hne : (toString n).toList ≠ [] := by
    rw [toList_toString]
    exact Nat.toDigits_ne_nil
  have hsign : (toString n).toList.head? ≠ some '+' := fun hc => by
    have hdigit := isDigit_of_mem_toString (List.mem_of_mem_head? hc)
    simp at hdigit
  have hdigits : (toString n).toList.all Char.isDigit = true := by
    rw [List.all_eq_true]
    exact fun c hc => isDigit_of_mem_toString hc
  have hvalue : (toString n).toList.foldl (fun n c => 10 * n + (c.toNat - '0'.toNat)) 0 = n := by
    rw [toList_toString, ← Nat.ofDigitChars_eq_foldl]
    exact Nat.ofDigitChars_ten_toDigits
  simp only [parseU64, hsign, if_false]
  rw [if_pos ⟨hne, hdigits⟩, hvalue, if_pos h]

end Str
