import Mathlib.Data.List.Nodup
import Mathlib.Data.List.TakeWhile

/-!
# Kei.Lib.Cuts

Lists cut at the first element out of bounds, or after a number of elements.

A cut keeps an element of the list when the bound falls along it, and a count
keeps in a sublist what it keeps in the whole list.
-/

namespace Kei.Cuts

universe u

variable {α : Type u} {l l' : List α} {a : α}

/-- The bound falls along the list: after an element out of bounds there is none within. -/
def Falls (p : α → Bool) (l : List α) : Prop := l.Pairwise (fun a b => p b = true → p a = true)

theorem takeWhile_eq_filter {p : α → Bool} (h : Falls p l) : l.takeWhile p = l.filter p := by
  induction l with
  | nil => rfl
  | cons b rest ih =>
      obtain ⟨hb, hrest⟩ := List.pairwise_cons.mp h
      by_cases hpb : p b = true
      · rw [List.takeWhile_cons_of_pos hpb, List.filter_cons_of_pos hpb, ih hrest]
      · have hnone : rest.filter p = [] := by
          refine List.filter_eq_nil_iff.mpr (fun c hc hpc => hpb (hb c hc hpc))
        rw [List.takeWhile_cons_of_neg hpb, List.filter_cons_of_neg hpb, hnone]

theorem mem_takeWhile {p : α → Bool} (h : Falls p l) :
    a ∈ l.takeWhile p ↔ a ∈ l ∧ p a = true := by
  rw [takeWhile_eq_filter h, List.mem_filter]

theorem of_mem_filter_takeWhile {p q : α → Bool} (h : a ∈ (l.takeWhile p).filter q) :
    p a = true ∧ q a = true :=
  ⟨List.all_eq_true.mp List.all_takeWhile a (List.mem_of_mem_filter h), List.of_mem_filter h⟩

theorem filter_takeWhile_eq_self {p q : α → Bool} (h : ∀ a ∈ l, p a = true ∧ q a = true) :
    (l.takeWhile p).filter q = l := by
  have hall : l.takeWhile p = l := List.takeWhile_eq_self_iff.mpr (fun a ha => (h a ha).1)
  rw [hall]
  exact List.filter_eq_self.mpr (fun a ha => (h a ha).2)

theorem mem_take_of_sublist {n : Nat} (h : l.Sublist l') (hnodup : l'.Nodup) (ha : a ∈ l)
    (htake : a ∈ l'.take n) : a ∈ l.take n := by
  induction h generalizing n with
  | slnil => simp at ha
  | cons b hsub ih =>
      cases n with
      | zero => simp at htake
      | succ n =>
          obtain ⟨hb, hrest⟩ := List.nodup_cons.mp hnodup
          rw [List.take_succ_cons] at htake
          rcases List.mem_cons.mp htake with rfl | hmem
          · exact absurd (hsub.subset ha) hb
          · exact (List.take_subset_take_left _ (Nat.le_succ n)) (ih hrest ha hmem)
  | cons_cons b hsub ih =>
      cases n with
      | zero => simp at htake
      | succ n =>
          have hrest := (List.nodup_cons.mp hnodup)
          rw [List.take_succ_cons] at htake ⊢
          by_cases heq : a = b
          · rw [heq]
            exact List.mem_cons_self
          · have hl := (List.mem_cons.mp ha).resolve_left heq
            have ht := (List.mem_cons.mp htake).resolve_left heq
            exact List.mem_cons_of_mem _ (ih hrest.2 hl ht)

end Kei.Cuts
