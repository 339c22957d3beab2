import Kei.Lib.Prog

/-!
# Kei.Lib.Ghost

Programs with a ghost part beside the real state.

`shadow` runs a program on the real part of a larger state, and the ghost part
follows what it did.  A program that `Erases` to another behaves as that one on
the real part: the ghost is looked at by proofs, and never by the program.
-/

namespace Prog

variable {τ σ ε α β : Type} {real : τ → σ}

/-- Run a program on the real part of the state, and let the ghost part follow. -/
def shadow (real : τ → σ) (follow : τ → σ → τ) (x : Prog σ ε α) : Prog τ ε α := fun t =>
  ((x (real t)).1, follow t (x (real t)).2)

/-- On the real part of the state the program behaves as `y`. -/
def Erases (real : τ → σ) (x : Prog τ ε α) (y : Prog σ ε α) : Prop :=
  ∀ t, (x t).1 = (y (real t)).1 ∧ real (x t).2 = (y (real t)).2

namespace Erases

theorem shadow {follow : τ → σ → τ} (h : ∀ t s, real (follow t s) = s) (x : Prog σ ε α) :
    Erases real (Prog.shadow real follow x) x := fun t => ⟨rfl, h t (x (real t)).2⟩

theorem pure (a : α) : Erases real (pure a : Prog τ ε α) (pure a) := fun _ => ⟨rfl, rfl⟩

theorem bind {x : Prog τ ε α} {y : Prog σ ε α} {f : α → Prog τ ε β} {g : α → Prog σ ε β}
    (h : Erases real x y) (hf : ∀ a, Erases real (f a) (g a)) :
    Erases real (x >>= f) (y >>= g) := by
  intro t
  obtain ⟨hresult, hreal⟩ := h t
  cases hx : x t with
  | mk result t' =>
      cases hy : y (real t) with
      | mk result' s =>
          rw [hx, hy] at hresult hreal
          subst hresult hreal
          cases result with
          | ok a =>
              rw [run_bind_ok hx, run_bind_ok hy]
              exact hf a t'
          | error e =>
              rw [run_bind_error hx, run_bind_error hy]
              exact ⟨rfl, rfl⟩

theorem ite {c : Prop} [Decidable c] {x x' : Prog τ ε α} {y y' : Prog σ ε α}
    (h : Erases real x y) (h' : Erases real x' y') :
    Erases real (if c then x else x') (if c then y else y') := by
  by_cases hc : c
  · rw [if_pos hc, if_pos hc]
    exact h
  · rw [if_neg hc, if_neg hc]
    exact h'

theorem ghost {f : τ → τ} (hf : ∀ t, real (f t) = real t) {x : Prog τ ε α} {y : Prog σ ε α}
    (h : Erases real x y) : Erases real (modify f >>= fun _ => x) y := by
  intro t
  rw [run_bind_ok (run_modify f t), ← hf t]
  exact h (f t)

end Erases

/-- An assertion that the ghost's step keeps is kept by the program it follows. -/
theorem shadow_keeps {I : τ → Prop} {follow : τ → σ → τ} {x : Prog σ ε α}
    (h : ∀ t, I t → I (follow t (x (real t)).2)) : Keeps I (shadow real follow x) := by
  intro t ht
  have hfollow := h t ht
  unfold shadow
  cases (x (real t)).1 with
  | ok a => exact hfollow
  | error e => exact hfollow

end Prog
