import Mathlib.Data.List.Chain
import Mathlib.Order.Lattice

/-!
# Kei.Lib.Tiling

Half-open intervals of an order that follow one another without gap or overlap.

`Tiles a l b` says that the list `l` leads from `a` to `b`.  Tilings compose
(`Tiles.append`), and what a tiling gives is read off it: every point between
its ends is in one of its intervals, and in no two of them.
-/

/-- The intervals from `lo` to `hi` of the list lead from one point to another. -/
inductive Tiles {ι β : Type} [LinearOrder ι] (lo hi : β → ι) : ι → List β → ι → Prop where
  | nil (a : ι) : Tiles lo hi a [] a
  | cons {r : β} {l : List β} {b : ι} (hr : lo r ≤ hi r) (hl : Tiles lo hi (hi r) l b) :
      Tiles lo hi (lo r) (r :: l) b

namespace Tiles

variable {ι β : Type} [LinearOrder ι] {lo hi : β → ι} {a b c : ι} {l l' : List β}

theorem single (r : β) (hr : lo r ≤ hi r) : Tiles lo hi (lo r) [r] (hi r) :=
  .cons hr (.nil _)

/-- Tilings that meet compose. -/
theorem append (h : Tiles lo hi a l b) (h' : Tiles lo hi b l' c) :
    Tiles lo hi a (l ++ l') c := by
  induction h with
  | nil a => simpa using h'
  | cons hr _ ih => exact .cons hr (ih h')

theorem le (h : Tiles lo hi a l b) : a ≤ b := by
  induction h with
  | nil a => exact le_refl a
  | cons hr _ ih => exact hr.trans ih

theorem within (h : Tiles lo hi a l b) {r : β} (hmem : r ∈ l) : a ≤ lo r ∧ hi r ≤ b := by
  induction h with
  | nil a => simp at hmem
  | cons hr hl ih =>
      have hle := hl.le
      cases List.mem_cons.mp hmem with
      | inl heq => subst heq; exact ⟨le_refl _, hle⟩
      | inr hin =>
          have := ih hin
          exact ⟨hr.trans this.1, this.2⟩

/-- Every point between the ends is in an interval. -/
theorem covers (h : Tiles lo hi a l b) {x : ι} (ha : a ≤ x) (hb : x < b) :
    ∃ r ∈ l, lo r ≤ x ∧ x < hi r := by
  induction h with
  | nil a => exact absurd hb (not_lt.mpr ha)
  | @cons r l b hr hl ih =>
      by_cases hx : x < hi r
      · exact ⟨r, by simp, ha, hx⟩
      · obtain ⟨s, hs, hin⟩ := ih (not_lt.mp hx) hb
        exact ⟨s, by simp [hs], hin⟩

/-- No interval reaches into a later one. -/
theorem pairwise (h : Tiles lo hi a l b) : l.Pairwise (fun r s => hi r ≤ lo s) := by
  induction h with
  | nil a => simp
  | cons hr hl ih => simpa [ih] using fun s hs => (hl.within hs).1

theorem head (h : Tiles lo hi a l b) {r : β} (hr : l.head? = some r) : lo r = a := by
  cases h with
  | nil a => simp at hr
  | cons _ _ => simp at hr; rw [hr]

theorem isChain (h : Tiles lo hi a l b) : l.IsChain (fun r s => hi r = lo s) := by
  induction h with
  | nil a => simp
  | cons hr hl ih => exact List.isChain_cons.mpr ⟨fun s hs => (hl.head hs).symm, ih⟩

end Tiles
