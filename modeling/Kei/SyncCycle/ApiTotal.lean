import Kei.SyncCycle

/-!
# Kei.SyncCycle.ApiTotal

The provider total of a cycle: the totals of its libraries, added up.

The sum starts with the default statistics, which have no total, as a library
without one has.  So the first total makes the sum a partial one.
-/

namespace Kei.SyncCycle

/-- The statistics of a cycle over these libraries. -/
def accumulateAll (libraries : List SyncStats) : SyncStats :=
  libraries.foldl SyncStats.accumulate {}

/-- The saturating sum of the totals, if there is one. -/
def saturatingSum : List Nat → Option Nat
  | [] => none
  | total :: rest => some (rest.foldl saturatingAdd total)

/-- The totals that are present. -/
def totalsOf (libraries : List SyncStats) : List Nat := libraries.filterMap (·.apiTotalAtStart)

/-- The total of a cycle is the sum of the totals, and it is partial if some library has no
total and another one has, or a total is partial already. -/
structure TotalsCombined (libraries : List SyncStats) : Prop where
  total : (accumulateAll libraries).apiTotalAtStart = saturatingSum (totalsOf libraries)
  isPartial : (accumulateAll libraries).apiTotalAtStartPartial = true ↔
    (∃ library ∈ libraries, library.apiTotalAtStart.isSome = true) ∧
        (∃ library ∈ libraries, library.apiTotalAtStart.isSome = false) ∨
      ∃ library ∈ libraries, library.apiTotalAtStartPartial = true

/-! ## the total -/

theorem total_foldl (libraries : List SyncStats) (s : SyncStats) :
    (libraries.foldl SyncStats.accumulate s).apiTotalAtStart =
      saturatingSum (s.apiTotalAtStart.toList ++ totalsOf libraries) := by
  induction libraries generalizing s with
  | nil => cases htotal : s.apiTotalAtStart <;> simp [htotal, totalsOf, saturatingSum]
  | cons library rest ih =>
      have hsum : (s.accumulate library).apiTotalAtStart =
          addTotals s.apiTotalAtStart library.apiTotalAtStart := rfl
      rw [List.foldl_cons, ih, hsum]
      cases htotal : s.apiTotalAtStart <;> cases hnext : library.apiTotalAtStart <;>
        simp [addTotals, totalsOf, saturatingSum, hnext]

/-! ## the flag -/

/-- **One library** makes the sum partial if just one of the two has a total. -/
theorem partial_accumulate (s library : SyncStats) :
    (s.accumulate library).apiTotalAtStartPartial = true ↔
      s.apiTotalAtStartPartial = true ∨ library.apiTotalAtStartPartial = true ∨
        library.apiTotalAtStart.isSome ≠ s.apiTotalAtStart.isSome := by
  cases hs : s.apiTotalAtStart <;> cases hl : library.apiTotalAtStart <;>
    simp [SyncStats.accumulate, hs, hl, addTotals]

theorem isSome_accumulate (s library : SyncStats) :
    (s.accumulate library).apiTotalAtStart.isSome =
      (s.apiTotalAtStart.isSome || library.apiTotalAtStart.isSome) := by
  cases hs : s.apiTotalAtStart <;> cases hl : library.apiTotalAtStart <;>
    simp [SyncStats.accumulate, hs, hl, addTotals]

/-- The sum is partial if one library has a total and the start has none, or the other way
round. -/
theorem partial_foldl (libraries : List SyncStats) (s : SyncStats) :
    (libraries.foldl SyncStats.accumulate s).apiTotalAtStartPartial = true ↔
      s.apiTotalAtStartPartial = true ∨
        (∃ library ∈ libraries, library.apiTotalAtStartPartial = true) ∨
          ∃ library ∈ libraries, library.apiTotalAtStart.isSome ≠ s.apiTotalAtStart.isSome := by
  induction libraries generalizing s with
  | nil => simp
  | cons library rest ih =>
      rw [List.foldl_cons, ih, partial_accumulate, isSome_accumulate]
      by_cases hsame : library.apiTotalAtStart.isSome = s.apiTotalAtStart.isSome
      · simp only [hsame, Bool.or_self, List.mem_cons, exists_eq_or_imp]
        grind
      · simp only [List.mem_cons, exists_eq_or_imp]
        grind

/-- A cycle has a partial total as soon as one library has a total. -/
theorem partial_accumulateAll (libraries : List SyncStats) :
    (accumulateAll libraries).apiTotalAtStartPartial = true ↔
      (∃ library ∈ libraries, library.apiTotalAtStartPartial = true) ∨
        ∃ library ∈ libraries, library.apiTotalAtStart.isSome = true := by
  have hall := partial_foldl libraries {}
  simpa [accumulateAll, Option.isSome_iff_ne_none] using hall

/--
**The totals are combined** as they should if and only if there is no library,
one library has no total, or one total is partial already.
-/
theorem totalsCombined_iff (libraries : List SyncStats) : TotalsCombined libraries ↔
    libraries = [] ∨ (∃ library ∈ libraries, library.apiTotalAtStart.isSome = false) ∨
      ∃ library ∈ libraries, library.apiTotalAtStartPartial = true := by
  constructor
  · intro h
    cases libraries with
    | nil => exact .inl rfl
    | cons library rest =>
        cases htotal : library.apiTotalAtStart.isSome with
        | false => exact .inr (.inl ⟨library, List.mem_cons_self, htotal⟩)
        | true =>
            have hsome := h.isPartial.mp ((partial_accumulateAll _).mpr
              (.inr ⟨library, List.mem_cons_self, htotal⟩))
            exact .inr (hsome.imp_left And.right)
  · intro h
    refine ⟨total_foldl libraries {}, ?_⟩
    rw [partial_accumulateAll]
    cases h with
    | inl hnil => simp [hnil]
    | inr h => grind

/-- **One library with a complete total** gives a partial total. -/
theorem complete_total_is_partial : ¬ TotalsCombined [{ apiTotalAtStart := some 405 }] := by
  intro h
  have hsome := h.isPartial.mp (by decide)
  exact absurd hsome (by decide)

end Kei.SyncCycle
