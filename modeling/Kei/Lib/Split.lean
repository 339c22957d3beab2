import Kei.Lib.Str

/-!
# Kei.Lib.Split

The pieces of a string between the occurrences of a character.
-/

namespace Str

variable {sep : Char} {l l' piece : List Char}

theorem splitList_ne_nil (sep : Char) (l : List Char) : splitList sep l ≠ [] := by
  cases l with
  | nil => simp [splitList]
  | cons c l =>
      rw [splitList]
      split
      · simp
      · split <;> simp

theorem splitList_of_not_mem (h : sep ∉ l) : splitList sep l = [l] := by
  induction l with
  | nil => rfl
  | cons c l ih =>
      rw [List.mem_cons, not_or] at h
      rw [splitList, if_neg (Ne.symm h.1), ih h.2]

/-- A separator ends a piece. -/
theorem splitList_append (l l' : List Char) :
    splitList sep (l ++ sep :: l') = splitList sep l ++ splitList sep l' := by
  induction l with
  | nil => simp [splitList]
  | cons c l ih =>
      rw [List.cons_append, splitList, splitList, ih]
      by_cases hc : c = sep
      · simp [hc]
      · simp only [hc, if_false]
        cases hl : splitList sep l with
        | nil => exact absurd hl (splitList_ne_nil sep l)
        | cons first rest => rfl

/-- No piece has the separator. -/
theorem not_mem_of_mem_splitList (h : piece ∈ splitList sep l) : sep ∉ piece := by
  induction l generalizing piece with
  | nil =>
      rw [splitList, List.mem_singleton] at h
      simp [h]
  | cons c l ih =>
      rw [splitList] at h
      split at h
      · rcases List.mem_cons.mp h with rfl | h
        · simp
        · exact ih h
      · next hc =>
          cases hl : splitList sep l with
          | nil => exact absurd hl (splitList_ne_nil sep l)
          | cons first rest =>
              rw [hl] at h ih
              rcases List.mem_cons.mp h with rfl | h
              · rw [List.mem_cons, not_or]
                exact ⟨Ne.symm hc, ih List.mem_cons_self⟩
              · exact ih (List.mem_cons_of_mem _ h)

theorem split_append (s t : String) : split (s ++ String.singleton sep ++ t) sep =
    split s sep ++ split t sep := by
  simp [split, splitList_append]

theorem split_of_not_mem {s : String} (h : sep ∉ s.toList) : split s sep = [s] := by
  rw [split, splitList_of_not_mem h]
  simp

theorem split_ne_nil (s : String) (sep : Char) : split s sep ≠ [] := by
  simp [split, splitList_ne_nil]

theorem not_mem_of_mem_split {s t : String} (h : t ∈ split s sep) : sep ∉ t.toList := by
  obtain ⟨piece, hpiece, rfl⟩ := List.mem_map.mp h
  rw [String.toList_ofList]
  exact not_mem_of_mem_splitList hpiece

end Str
