import Kei.Lib.Fallible
import Mathlib.Data.List.Forall2

/-!
# Kei.Lib.Traverse

Lists of computations that may be rejected: all of them are accepted, or the
first rejection stops the rest.
-/

theorem List.Forall₂.exists_left {α β : Type*} {R : α → β → Prop} {l : List α} {r : List β} {b : β}
    (h : List.Forall₂ R l r) (hb : b ∈ r) : ∃ a ∈ l, R a b := by
  induction h with
  | nil => simp at hb
  | cons hab _ ih =>
      rcases List.mem_cons.mp hb with rfl | hb
      · exact ⟨_, List.mem_cons_self, hab⟩
      · obtain ⟨a, ha, hR⟩ := ih hb
        exact ⟨a, List.mem_cons_of_mem _ ha, hR⟩

theorem List.Forall₂.exists_right {α β : Type*} {R : α → β → Prop} {l : List α} {r : List β}
    {a : α} (h : List.Forall₂ R l r) (ha : a ∈ l) : ∃ b ∈ r, R a b := by
  obtain ⟨b, hb, hR⟩ := h.flip.exists_left ha
  exact ⟨b, hb, hR⟩

namespace Fallible

variable {ε α β : Type}

theorem exists_of_isOk {x : Except ε α} (h : x.isOk = true) : ∃ a, x = .ok a := by
  cases x with
  | error e => cases h
  | ok a => exact ⟨a, rfl⟩

variable {l : List α}

/-- Every check must pass. -/
theorem forM_eq_ok {f : α → Except ε Unit} {u : Unit} :
    l.forM f = .ok u ↔ ∀ a ∈ l, f a = .ok () := by
  induction l with
  | nil => simp [pure, Except.pure]
  | cons a l ih =>
      rw [List.forM_eq_forM, List.forM_cons, bind_eq_ok, List.forall_mem_cons]
      constructor
      · rintro ⟨⟨⟩, ha, hl⟩
        exact ⟨ha, ih.mp hl⟩
      · exact fun h => ⟨(), h.1, ih.mpr h.2⟩

variable {f : α → Except ε β}

/-- Every computation must be accepted. -/
theorem mapM_eq_ok {r : List β} : l.mapM f = .ok r ↔ List.Forall₂ (fun a b => f a = .ok b) l r := by
  induction l generalizing r with
  | nil =>
      rw [List.mapM_nil, pure_eq_ok, List.forall₂_nil_left_iff]
      exact eq_comm
  | cons a l ih =>
      rw [List.mapM_cons, bind_eq_ok, List.forall₂_cons_left_iff]
      simp only [bind_eq_ok, pure_eq_ok, ih]
      constructor
      · rintro ⟨b, hb, r', hr, rfl⟩
        exact ⟨b, r', hb, hr, rfl⟩
      · rintro ⟨b, r', hb, hr, rfl⟩
        exact ⟨b, hb, r', hr, rfl⟩

theorem exists_mapM_eq_ok (h : ∀ a ∈ l, ∃ b, f a = .ok b) : ∃ r, l.mapM f = .ok r := by
  induction l with
  | nil => exact ⟨[], rfl⟩
  | cons a l ih =>
      obtain ⟨b, hb⟩ := h a List.mem_cons_self
      obtain ⟨r, hr⟩ := ih fun a' ha' => h a' (List.mem_cons_of_mem _ ha')
      exact ⟨b :: r, by rw [List.mapM_cons, hb, ok_bind, hr]; rfl⟩

/-- A result is that of an element. -/
theorem exists_of_mem_mapM {r : List β} {b : β} (h : l.mapM f = .ok r) (hb : b ∈ r) :
    ∃ a ∈ l, f a = .ok b :=
  (mapM_eq_ok.mp h).exists_left hb

theorem exists_result_of_mapM {r : List β} {a : α} (h : l.mapM f = .ok r) (ha : a ∈ l) :
    ∃ b ∈ r, f a = .ok b :=
  (mapM_eq_ok.mp h).exists_right ha

end Fallible
