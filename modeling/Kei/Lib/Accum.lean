/-!
# Kei.Lib.Accum

Loops that carry a state and give outputs.

`accum step s l` runs `step` over the list and collects what each step gives.
An output comes from one step, and `mem_accum` says in which state that step
was; `accum_invariant` is the rule for what every step keeps.  This module
depends only on the Lean core library.
-/

namespace Accum

variable {σ α ι : Type}

/-- The state after all steps, and their outputs in order. -/
def accum (step : σ → α → σ × List ι) : σ → List α → σ × List ι
  | s, [] => (s, [])
  | s, a :: l => ((accum step (step s a).1 l).1, (step s a).2 ++ (accum step (step s a).1 l).2)

variable {step : σ → α → σ × List ι} {s : σ} {a : α} {l l' : List α}

@[simp] theorem accum_nil : accum step s [] = (s, []) := rfl

@[simp] theorem accum_cons_fst :
    (accum step s (a :: l)).1 = (accum step (step s a).1 l).1 := rfl

@[simp] theorem accum_cons_snd :
    (accum step s (a :: l)).2 = (step s a).2 ++ (accum step (step s a).1 l).2 := rfl

theorem accum_fst_eq_foldl : (accum step s l).1 = l.foldl (fun s a => (step s a).1) s := by
  induction l generalizing s with
  | nil => rfl
  | cons a l ih => exact ih

theorem accum_append_fst :
    (accum step s (l ++ l')).1 = (accum step (accum step s l).1 l').1 := by
  induction l generalizing s with
  | nil => rfl
  | cons a l ih => simp [ih]

theorem accum_append_snd :
    (accum step s (l ++ l')).2 = (accum step s l).2 ++ (accum step (accum step s l).1 l').2 := by
  induction l generalizing s with
  | nil => simp
  | cons a l ih => simp [ih]

theorem mem_accum {x : ι} :
    x ∈ (accum step s l).2 ↔
      ∃ before a after, l = before ++ a :: after ∧ x ∈ (step (accum step s before).1 a).2 := by
  constructor
  · induction l generalizing s with
    | nil => simp
    | cons b l ih =>
        intro h
        simp only [accum_cons_snd, List.mem_append] at h
        rcases h with h | h
        · exact ⟨[], b, l, rfl, h⟩
        · obtain ⟨before, a, after, hl, hx⟩ := ih h
          exact ⟨b :: before, a, after, by simp [hl], hx⟩
  · rintro ⟨before, a, after, rfl, hx⟩
    simp [accum_append_snd, hx]

theorem accum_quiet :
    (accum step s l).2 = [] ↔
      ∀ before a after, l = before ++ a :: after → (step (accum step s before).1 a).2 = [] := by
  simp only [List.eq_nil_iff_forall_not_mem, mem_accum]
  constructor
  · exact fun h before a after hl x hx => h x ⟨before, a, after, hl, hx⟩
  · rintro h x ⟨before, a, after, hl, hx⟩
    exact h before a after hl x hx

theorem accum_invariant {I : σ → Prop} (hs : I s) (hstep : ∀ s, ∀ a ∈ l, I s → I (step s a).1) :
    I (accum step s l).1 := by
  induction l generalizing s with
  | nil => exact hs
  | cons b l ih =>
      have hb := hstep s b (by simp) hs
      exact ih hb (fun s a ha => hstep s a (by simp [ha]))

/-- The same for a loop that gives nothing, where a step may be taken to give nothing. -/
theorem accum_invariant_quiet {I : σ → Prop} (hquiet : (accum step s l).2 = []) (hs : I s)
    (hstep : ∀ s, ∀ a ∈ l, (step s a).2 = [] → I s → I (step s a).1) : I (accum step s l).1 := by
  induction l generalizing s with
  | nil => exact hs
  | cons b l ih =>
      obtain ⟨hb, hl⟩ := List.append_eq_nil_iff.mp hquiet
      exact ih hl (hstep s b (by simp) hb hs) (fun s a ha => hstep s a (by simp [ha]))

end Accum
