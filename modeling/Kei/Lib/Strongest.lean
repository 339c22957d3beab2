import Mathlib.Order.Bounds.Basic
import Mathlib.Order.Defs.LinearOrder

/-!
# Kei.Lib.Strongest

One value for each key: the strongest.

Values come with keys, one after the other.  A value of a new key is put at the
end; a value of a known key replaces the one that is there if its rank is
higher.  What is kept of a key depends on the values of that key alone, and up
to rank not on their order.
-/

namespace Strongest

variable {K V R : Type} [LinearOrder R]

/-- What the list keeps of these entries. -/
structure Keeps (rank : V → R) (entries grouped : List (K × V)) : Prop where
  nodup : (grouped.map (·.1)).Nodup
  keys : ∀ k, k ∈ grouped.map (·.1) ↔ k ∈ entries.map (·.1)
  mem : ∀ e ∈ grouped, e ∈ entries
  le : ∀ e ∈ grouped, ∀ e' ∈ entries, e'.1 = e.1 → rank e'.2 ≤ rank e.2

variable {rank : V → R} {entries entries' grouped grouped' : List (K × V)}

theorem keeps_nil (rank : V → R) : Keeps rank ([] : List (K × V)) [] := by constructor <;> simp

/-- **The strongest.**  The rank that is kept of a key is the highest of its values. -/
theorem Keeps.isGreatest (h : Keeps rank entries grouped) {k : K} {v : V}
    (hv : (k, v) ∈ grouped) : IsGreatest {r | ∃ v', (k, v') ∈ entries ∧ rank v' = r} (rank v) := by
  constructor
  · exact ⟨v, h.mem _ hv, rfl⟩
  · rintro r ⟨v', hv', rfl⟩
    exact h.le (k, v) hv (k, v') hv' rfl

theorem Keeps.rank_eq (h : Keeps rank entries grouped) (h' : Keeps rank entries' grouped')
    {k : K} {v v' : V} (hsame : ∀ u, (k, u) ∈ entries ↔ (k, u) ∈ entries')
    (hv : (k, v) ∈ grouped) (hv' : (k, v') ∈ grouped') : rank v = rank v' := by
  have hgreatest := h.isGreatest hv
  simp only [hsame] at hgreatest
  exact hgreatest.unique (h'.isGreatest hv')

/-! ## one entry after the other -/

variable [DecidableEq K]

/-- Keep the entry, if its key is new or its rank is higher. -/
def merge (rank : V → R) (grouped : List (K × V)) (entry : K × V) : List (K × V) :=
  if entry.1 ∈ grouped.map (·.1) then
    grouped.map (fun e => if e.1 = entry.1 ∧ rank e.2 < rank entry.2 then entry else e)
  else grouped ++ [entry]

theorem map_merge (rank : V → R) (grouped : List (K × V)) (entry : K × V) :
    (merge rank grouped entry).map (·.1) =
      if entry.1 ∈ grouped.map (·.1) then grouped.map (·.1)
      else grouped.map (·.1) ++ [entry.1] := by
  rw [merge]
  by_cases hknown : entry.1 ∈ grouped.map (·.1)
  · rw [if_pos hknown, if_pos hknown, List.map_map]
    apply List.map_congr_left
    intro e _
    by_cases h : e.1 = entry.1 ∧ rank e.2 < rank entry.2
    · simp [h]
    · simp [h]
  · simp [hknown]

theorem Keeps.merge (h : Keeps rank entries grouped) (entry : K × V) :
    Keeps rank (entries ++ [entry]) (merge rank grouped entry) where
  nodup := by
    rw [map_merge]
    by_cases hknown : entry.1 ∈ grouped.map (·.1)
    · rw [if_pos hknown]
      exact h.nodup
    · rw [if_neg hknown]
      exact List.nodup_append.2 ⟨h.nodup, by simp, by grind⟩
  keys k := by
    have hkeys := h.keys k
    rw [map_merge]
    grind
  mem e he := by
    have hmem := h.mem
    rw [Strongest.merge] at he
    grind
  le e he e' he' hkey := by
    have hle := h.le
    have hkeys := h.keys e.1
    rw [Strongest.merge] at he
    by_cases hknown : entry.1 ∈ grouped.map (·.1)
    · rw [if_pos hknown, List.mem_map] at he
      obtain ⟨kept, hkept, rfl⟩ := he
      have hold : ∀ e'' ∈ entries, e''.1 = kept.1 → rank e''.2 ≤ rank kept.2 := hle kept hkept
      grind
    · grind

theorem Keeps.foldl (h : Keeps rank entries grouped) (later : List (K × V)) :
    Keeps rank (entries ++ later) (later.foldl (Strongest.merge rank) grouped) := by
  induction later generalizing entries grouped with
  | nil => simpa using h
  | cons entry later ih => simpa using ih (h.merge entry)

end Strongest
