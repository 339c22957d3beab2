import Kei.Lib.Split
import Mathlib.Data.List.Basic

/-!
# Kei.Lib.Replace

Finding, counting and replacing a pattern in a string.

A pattern without a separator in it is found, counted and replaced in each piece
between the separators by itself.
-/

namespace Str

section finding

variable [DecidableEq α] {sep : α} {pattern new l a b : List α}

/-- Count from the left; the first `skip` characters belong to a match already counted. -/
def countFrom (pattern : List α) : Nat → List α → Nat
  | _, [] => 0
  | skip + 1, _ :: l => countFrom pattern skip l
  | 0, c :: l =>
      if pattern.isPrefixOf (c :: l) then countFrom pattern (pattern.length - 1) l + 1
      else countFrom pattern 0 l

/-- `str::matches` with `count`, of a pattern that is not empty. -/
def countMatches (s pattern : String) : Nat := countFrom pattern.toList 0 s.toList

/-! ## finding -/

/-- The search finds every infix. -/
theorem containsFrom_iff : containsFrom pattern l = true ↔ pattern <:+: l := by
  induction l with
  | nil => simp [containsFrom]
  | cons c l ih => simp [containsFrom, ih, List.infix_cons_iff]

theorem isPrefixOf_append_sep (h : sep ∉ pattern) :
    pattern.isPrefixOf (a ++ sep :: b) = pattern.isPrefixOf a := by
  induction a generalizing pattern with
  | nil => cases pattern <;> grind [List.isPrefixOf]
  | cons c a ih => cases pattern <;> grind [List.isPrefixOf]

theorem not_isPrefixOf_sep (hne : pattern ≠ []) (h : sep ∉ pattern) :
    pattern.isPrefixOf (sep :: b) = false := by
  cases pattern with
  | nil => exact absurd rfl hne
  | cons c rest =>
      rw [List.mem_cons, not_or] at h
      simp [List.isPrefixOf, Ne.symm h.1]

theorem containsFrom_append_sep (hne : pattern ≠ []) (h : sep ∉ pattern) :
    containsFrom pattern (a ++ sep :: b) = (containsFrom pattern a || containsFrom pattern b) := by
  induction a with
  | nil => simp [containsFrom, not_isPrefixOf_sep hne h, hne]
  | cons c a ih =>
      have hstart := @isPrefixOf_append_sep _ _ _ _ (c :: a) b h
      rw [List.cons_append] at hstart
      simp [containsFrom, hstart, ih, Bool.or_assoc]

/-! ## steps of a replacement -/

theorem mem_replaceFrom {skip : Nat} {c : α} (h : c ∈ replaceFrom pattern new skip l) :
    c ∈ l ∨ c ∈ new := by
  fun_induction replaceFrom pattern new skip l with grind

theorem replaceFrom_skip (front back : List α) :
    replaceFrom pattern new front.length (front ++ back) = replaceFrom pattern new 0 back := by
  induction front with
  | nil => rfl
  | cons c front ih => exact ih

theorem countFrom_skip (front back : List α) :
    countFrom pattern front.length (front ++ back) = countFrom pattern 0 back := by
  induction front with
  | nil => rfl
  | cons c front ih => exact ih

theorem replaceFrom_cons {c : α} (h : pattern.isPrefixOf (c :: l) = false) :
    replaceFrom pattern new 0 (c :: l) = c :: replaceFrom pattern new 0 l := by
  rw [replaceFrom, if_neg (by simp [h])]

theorem countFrom_cons {c : α} (h : pattern.isPrefixOf (c :: l) = false) :
    countFrom pattern 0 (c :: l) = countFrom pattern 0 l := by
  rw [countFrom, if_neg (by simp [h])]

theorem replaceFrom_pattern (hne : pattern ≠ []) (back : List α) :
    replaceFrom pattern new 0 (pattern ++ back) = new ++ replaceFrom pattern new 0 back := by
  obtain ⟨c, rest, rfl⟩ := List.exists_cons_of_ne_nil hne
  rw [List.cons_append, replaceFrom, if_pos (by simp)]
  exact congrArg _ (replaceFrom_skip rest back)

theorem countFrom_pattern (hne : pattern ≠ []) (back : List α) :
    countFrom pattern 0 (pattern ++ back) = countFrom pattern 0 back + 1 := by
  obtain ⟨c, rest, rfl⟩ := List.exists_cons_of_ne_nil hne
  rw [List.cons_append, countFrom, if_pos (by simp)]
  exact congrArg (· + 1) (countFrom_skip rest back)

theorem replaceFrom_self (hne : pattern ≠ []) : replaceFrom pattern new 0 pattern = new := by
  simpa [replaceFrom] using @replaceFrom_pattern _ _ pattern new hne []

theorem countFrom_self (hne : pattern ≠ []) : countFrom pattern 0 pattern = 1 := by
  simpa [countFrom] using @countFrom_pattern _ _ pattern hne []

/-- Nothing is replaced where nothing matches. -/
theorem replaceFrom_of_not_contains (h : containsFrom pattern l = false) :
    replaceFrom pattern new 0 l = l := by
  induction l with
  | nil => rfl
  | cons c l ih =>
      simp only [containsFrom, Bool.or_eq_false_iff] at h
      rw [replaceFrom_cons h.1, ih h.2]

theorem replaceFrom_clear {n : Nat} (hn : n ≤ l.length)
    (h : ∀ i < n, pattern.isPrefixOf (l.drop i) = false) :
    replaceFrom pattern new 0 l = l.take n ++ replaceFrom pattern new 0 (l.drop n) := by
  induction n generalizing l with
  | zero => rfl
  | succ n ih =>
      cases l with
      | nil => cases hn
      | cons c l =>
          have hrest := ih (Nat.le_of_succ_le_succ hn) fun i hi => h (i + 1) (by omega)
          rw [replaceFrom_cons (h 0 (by omega)), hrest]
          rfl

theorem not_contains_of_count (hne : pattern ≠ []) (h : countFrom pattern 0 l = 0) :
    containsFrom pattern l = false := by
  induction l with
  | nil => simpa [containsFrom] using hne
  | cons c l ih =>
      rw [countFrom] at h
      split at h
      · omega
      · next hfront => simp [containsFrom, hfront, ih h]

/-! ## pieces -/

/-- What goes on between two separators does not depend on the rest: a match is either in front,
and is taken off, or one character is. -/
theorem piece_induction {motive : List α → Prop} (hne : pattern ≠ []) (nil : motive [])
    (found : ∀ back, motive back → motive (pattern ++ back))
    (step : ∀ c l, pattern.isPrefixOf (c :: l) = false → motive l → motive (c :: l)) :
    ∀ l, motive l := by
  intro l
  induction hlen : l.length using Nat.strongRecOn generalizing l with
  | ind n ih =>
      cases l with
      | nil => exact nil
      | cons c l =>
          cases hfront : pattern.isPrefixOf (c :: l) with
          | true =>
              obtain ⟨back, hback⟩ := List.isPrefixOf_iff_prefix.mp hfront
              have hpos := List.length_pos_iff.mpr hne
              have hsum := congrArg List.length hback
              rw [List.length_append] at hsum
              rw [← hback]
              exact found back (ih back.length (by omega) back rfl)
          | false => exact step c l hfront (ih l.length (by simp [← hlen]) l rfl)

theorem not_contains_of_clear (hne : pattern ≠ [])
    (h : ∀ i < l.length, pattern.isPrefixOf (l.drop i) = false) :
    containsFrom pattern l = false := by
  rw [← Bool.not_eq_true, containsFrom_iff]
  rintro ⟨front, back, rfl⟩
  have hpos := List.length_pos_iff.mpr hne
  have hstart := h front.length (by simp; omega)
  rw [List.append_assoc, List.drop_left, ← Bool.not_eq_true, List.isPrefixOf_iff_prefix] at hstart
  exact hstart (List.prefix_append _ _)

theorem containsFrom_mask (hne : pattern ≠ []) (mask : List α) (h : ∀ c ∈ mask, c ∉ pattern)
    (back : List α) : containsFrom pattern (mask ++ back) = containsFrom pattern back := by
  induction mask with
  | nil => rfl
  | cons c mask ih =>
      rw [List.forall_mem_cons] at h
      have hcut := @containsFrom_append_sep _ _ c pattern [] (mask ++ back) hne h.1
      rw [List.nil_append] at hcut
      simp [hcut, containsFrom, hne, ih h.2]

/-- A replacement that shares no character with the pattern leaves no match behind. -/
theorem not_contains_replaceFrom (hne : pattern ≠ []) (hnew : new ≠ [])
    (h : ∀ c ∈ new, c ∉ pattern) (l : List α) :
    containsFrom pattern (replaceFrom pattern new 0 l) = false := by
  -- `front` is what stays in front of `l`: no match begins in it
  suffices ∀ front, (∀ i < front.length, pattern.isPrefixOf ((front ++ l).drop i) = false) →
      containsFrom pattern (front ++ replaceFrom pattern new 0 l) = false by
    simpa using this [] (by simp)
  induction l using @piece_induction _ _ pattern _ hne with
  | nil => simpa [replaceFrom] using fun front h => not_contains_of_clear hne h
  | found back ih =>
      intro front hclear
      have hfront : containsFrom pattern front = false := by
        refine not_contains_of_clear hne fun i hi => ?_
        have hlonger := hclear i hi
        rw [List.drop_append_of_le_length (Nat.le_of_lt hi)] at hlonger
        rw [← Bool.not_eq_true, List.isPrefixOf_iff_prefix] at hlonger ⊢
        exact fun hmatch => hlonger (hmatch.trans (List.prefix_append _ _))
      obtain ⟨c, rest, rfl⟩ := List.exists_cons_of_ne_nil hnew
      rw [replaceFrom_pattern hne, List.cons_append,
        containsFrom_append_sep hne (h c List.mem_cons_self), hfront,
        containsFrom_mask hne rest fun d hd => h d (List.mem_cons_of_mem _ hd)]
      exact ih [] (by simp)
  | step c l hstep ih =>
      intro front hclear
      rw [replaceFrom_cons hstep, List.append_cons]
      refine ih (front ++ [c]) fun i hi => ?_
      rw [← List.append_cons]
      by_cases hend : i < front.length
      · exact hclear i hend
      · rw [List.length_append, List.length_singleton] at hi
        obtain rfl : i = front.length := by omega
        rwa [List.drop_left]

/-- No match goes over a separator that the pattern lacks. -/
theorem replaceFrom_append_sep (hne : pattern ≠ []) (h : sep ∉ pattern) (a b : List α) :
    replaceFrom pattern new 0 (a ++ sep :: b) =
      replaceFrom pattern new 0 a ++ sep :: replaceFrom pattern new 0 b := by
  induction a using @piece_induction _ _ pattern _ hne with
  | nil => exact replaceFrom_cons (not_isPrefixOf_sep hne h)
  | found back ih =>
      rw [List.append_assoc, replaceFrom_pattern hne, replaceFrom_pattern hne, ih,
        List.append_assoc]
  | step c l hfront ih =>
      have hstart := @isPrefixOf_append_sep _ _ _ _ (c :: l) b h
      rw [List.cons_append, hfront] at hstart
      rw [List.cons_append, replaceFrom_cons hstart, ih, replaceFrom_cons hfront,
        List.cons_append]

theorem countFrom_append_sep (hne : pattern ≠ []) (h : sep ∉ pattern) (a b : List α) :
    countFrom pattern 0 (a ++ sep :: b) = countFrom pattern 0 a + countFrom pattern 0 b := by
  induction a using @piece_induction _ _ pattern _ hne with
  | nil => simp [countFrom_cons (not_isPrefixOf_sep hne h), countFrom]
  | found back ih =>
      rw [List.append_assoc, countFrom_pattern hne, countFrom_pattern hne, ih]
      omega
  | step c l hfront ih =>
      have hstart := @isPrefixOf_append_sep _ _ _ _ (c :: l) b h
      rw [List.cons_append, hfront] at hstart
      rw [List.cons_append, countFrom_cons hstart, ih, countFrom_cons hfront]

/-- Induction on the pieces between separators. -/
theorem sep_induction {motive : List α → Prop} (sep : α) (piece : ∀ l, sep ∉ l → motive l)
    (next : ∀ a b, sep ∉ a → motive b → motive (a ++ sep :: b)) : ∀ l, motive l := by
  intro l
  induction hlen : l.length using Nat.strongRecOn generalizing l with
  | ind n ih =>
      by_cases hmem : sep ∈ l
      · obtain ⟨a, b, rfl, hnot⟩ := List.eq_append_cons_of_mem hmem
        exact next a b hnot (ih b.length (by simp [← hlen]; omega) b rfl)
      · exact piece l hmem

end finding

variable {sep : Char} {pattern new l : List Char}

theorem splitList_replaceFrom (hne : pattern ≠ []) (h : sep ∉ pattern) (hnew : sep ∉ new)
    (l : List Char) : splitList sep (replaceFrom pattern new 0 l) =
      (splitList sep l).map (replaceFrom pattern new 0) := by
  have hpiece (a : List Char) (ha : sep ∉ a) : sep ∉ replaceFrom pattern new 0 a := fun hmem =>
    (mem_replaceFrom hmem).elim ha hnew
  induction l using sep_induction sep with
  | piece l hl => rw [splitList_of_not_mem hl, splitList_of_not_mem (hpiece l hl)]; rfl
  | next a b ha ih =>
      rw [replaceFrom_append_sep hne h, splitList_append, splitList_append, ih,
        splitList_of_not_mem ha, splitList_of_not_mem (hpiece a ha), List.map_append]
      rfl

theorem containsFrom_eq_any (hne : pattern ≠ []) (h : sep ∉ pattern) (l : List Char) :
    containsFrom pattern l = (splitList sep l).any (containsFrom pattern) := by
  induction l using sep_induction sep with
  | piece l hl => simp [splitList_of_not_mem hl]
  | next a b ha ih =>
      rw [containsFrom_append_sep hne h, splitList_append, splitList_of_not_mem ha, ih]
      simp

theorem countFrom_eq_sum (hne : pattern ≠ []) (h : sep ∉ pattern) (l : List Char) :
    countFrom pattern 0 l = ((splitList sep l).map (countFrom pattern 0)).sum := by
  induction l using sep_induction sep with
  | piece l hl => simp [splitList_of_not_mem hl]
  | next a b ha ih =>
      rw [countFrom_append_sep hne h, splitList_append, splitList_of_not_mem ha, ih]
      simp

/-! ## a doubled character -/

theorem isPrefixOf_double (h : sep ∉ pattern) :
    pattern.isPrefixOf (replaceFrom [sep] [sep, sep] 0 l) = pattern.isPrefixOf l := by
  induction l generalizing pattern with
  | nil => rfl
  | cons c l ih =>
      by_cases hc : c = sep
      · subst hc
        have hfound := @replaceFrom_pattern _ _ [c] [c, c] (by simp) l
        rw [List.singleton_append] at hfound
        rw [hfound]
        cases pattern <;> grind [List.isPrefixOf]
      · rw [replaceFrom_cons (by simp [List.isPrefixOf, Ne.symm hc])]
        cases pattern with
        | nil => rfl
        | cons d pattern =>
            rw [List.mem_cons, not_or] at h
            simp [List.isPrefixOf, ih h.2]

theorem containsFrom_double (hne : pattern ≠ []) (h : sep ∉ pattern) (l : List Char) :
    containsFrom pattern (replaceFrom [sep] [sep, sep] 0 l) = containsFrom pattern l := by
  induction l with
  | nil => rfl
  | cons c l ih =>
      by_cases hc : c = sep
      · subst hc
        have hfound := @replaceFrom_pattern _ _ [c] [c, c] (by simp) l
        rw [List.singleton_append] at hfound
        rw [hfound]
        simp [containsFrom, not_isPrefixOf_sep hne h, ih]
      · have hfront := @isPrefixOf_double _ _ (c :: l) h
        rw [replaceFrom_cons (by simp [List.isPrefixOf, Ne.symm hc])] at hfront ⊢
        simp [containsFrom, hfront, ih]

theorem mem_double {c : Char} (h : c ∈ l) : c ∈ replaceFrom [sep] [sep, sep] 0 l := by
  induction l using @piece_induction _ _ [sep] _ (by simp) with
  | nil => exact h
  | found back ih =>
      rw [replaceFrom_pattern (by simp)]
      grind
  | step d l hfront ih =>
      rw [replaceFrom_cons hfront]
      grind

/-! ## strings -/

variable {s t token text : String}

theorem replace_of_not_contains (h : contains s token = false) : replace s token text = s :=
  String.toList_inj.mp (String.toList_ofList.trans (replaceFrom_of_not_contains h))

theorem replace_self (hne : token ≠ "") : replace token token text = text :=
  String.toList_inj.mp (String.toList_ofList.trans (replaceFrom_self (by simpa using hne)))

/-- The pieces are replaced one by one. -/
theorem split_replace (hne : token ≠ "") (h : sep ∉ token.toList) (htext : sep ∉ text.toList)
    (s : String) :
    split (replace s token text) sep =
      (split s sep).map (fun piece => replace piece token text) := by
  rw [split, replace, String.toList_ofList,
    splitList_replaceFrom (by simpa using hne) h htext, split, List.map_map, List.map_map]
  exact List.map_congr_left fun piece _ => by simp [replace]

theorem contains_eq_any (hne : token ≠ "") (h : sep ∉ token.toList) (s : String) :
    contains s token = (split s sep).any (fun piece => contains piece token) := by
  rw [contains, containsFrom_eq_any (by simpa using hne) h, split, List.any_map]
  exact congrArg _ (funext fun piece => by simp [contains])

theorem countMatches_eq_sum (hne : token ≠ "") (h : sep ∉ token.toList) (s : String) :
    countMatches s token = ((split s sep).map (fun piece => countMatches piece token)).sum := by
  rw [countMatches, countFrom_eq_sum (by simpa using hne) h, split, List.map_map]
  exact congrArg _ (List.map_congr_left fun piece _ => by simp [countMatches])

theorem split_injective (h : split s sep = split t sep) : s = t := by
  have hjoin (l : List Char) : l = (splitList sep l).headD [] ++
      (splitList sep l).tail.flatMap (sep :: ·) := by
    induction l using sep_induction sep with
    | piece l hl => simp [splitList_of_not_mem hl]
    | next a b ha ih =>
        rw [splitList_append, splitList_of_not_mem ha]
        cases hb : splitList sep b with
        | nil => exact absurd hb (splitList_ne_nil sep b)
        | cons first rest =>
            rw [hb] at ih
            simpa using congrArg (a ++ sep :: ·) ih
  have hpieces : splitList sep s.toList = splitList sep t.toList :=
    List.map_injective_iff.mpr (fun _ _ => String.ofList_injective) h
  rw [← String.toList_inj, hjoin s.toList, hpieces, ← hjoin t.toList]

/-- A token that is counted at most once, and is a piece of the string if it is there, is not
within another piece. -/
theorem whole_piece (hne : token ≠ "") (h : sep ∉ token.toList) (hcount : countMatches s token ≤ 1)
    (hthere : contains s token = true → token ∈ split s sep) :
    ∀ piece ∈ split s sep, piece = token ∨ contains piece token = false := by
  intro piece hpiece
  by_contra hboth
  rw [not_or, Bool.not_eq_false] at hboth
  have hmem : token ∈ split s sep := by
    apply hthere
    rw [contains_eq_any hne h, List.any_eq_true]
    exact ⟨piece, hpiece, hboth.2⟩
  have htoken : countMatches token token = 1 := countFrom_self (by simpa using hne)
  have hinside : countMatches piece token ≠ 0 := fun hzero => by
    have hnone := not_contains_of_count (by simpa using hne) hzero
    exact Bool.false_ne_true (hnone.symm.trans hboth.2)
  rw [countMatches_eq_sum hne h] at hcount
  generalize split s sep = pieces at *
  obtain ⟨front, back, rfl⟩ := List.append_of_mem hmem
  have hother : piece ∈ front ++ back := by grind
  have hpos : 0 < ((front ++ back).map (fun piece => countMatches piece token)).sum :=
    List.sum_pos_iff_exists_pos_nat.mpr
      ⟨_, List.mem_map_of_mem hother, Nat.pos_of_ne_zero hinside⟩
  simp only [List.map_append, List.map_cons, List.sum_append, List.sum_cons] at hcount hpos
  omega

end Str
