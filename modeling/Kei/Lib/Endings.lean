import Mathlib.Logic.Relation

/-!
# Kei.Lib.Endings

Systems that come to an end.

A run takes steps as long as there is one.  `EndsIn step P s` says that every
run from `s` ends, and that it ends in `P`: no run goes on for ever, and none
is stuck where `P` does not hold.
-/

namespace Endings

open Relation

variable {σ β : Type*} {step : σ → σ → Prop} {P I : σ → Prop} {s s' : σ}

/-- There is no step from `s`. -/
def Stuck (step : σ → σ → Prop) (s : σ) : Prop := ∀ s', ¬step s s'

/-- Every maximal run from `s` is finite, and its last state is in `P`. -/
structure EndsIn (step : σ → σ → Prop) (P : σ → Prop) (s : σ) : Prop where
  finite : Acc (fun after before => step before after) s
  last : ∀ s', ReflTransGen step s s' → Stuck step s' → P s'

/-- What holds at first and is kept by every step holds wherever a run gets to. -/
theorem invariant (hstep : ∀ s s', I s → step s s' → I s') (hs : I s)
    (hrun : ReflTransGen step s s') : I s' := by
  induction hrun with
  | refl => exact hs
  | tail _ h ih => exact hstep _ _ ih h

theorem finite_of_smaller {r : β → β → Prop} (hr : WellFounded r) {μ : σ → β}
    (hstep : ∀ s s', step s s' → r (μ s') (μ s)) (s : σ) :
    Acc (fun after before => step before after) s := by
  have hwf : WellFounded (fun s' s => r (μ s') (μ s)) := InvImage.wf μ hr
  exact Subrelation.accessible (fun {after before} h => hstep before after h) (hwf.apply s)

theorem endsIn_of_smaller {r : β → β → Prop} (hr : WellFounded r) {μ : σ → β}
    (hsmaller : ∀ s s', step s s' → r (μ s') (μ s)) (hstep : ∀ s s', I s → step s s' → I s')
    (hs : I s) (hstuck : ∀ s', I s' → Stuck step s' → P s') : EndsIn step P s :=
  ⟨finite_of_smaller hr hsmaller s, fun s' hrun h => hstuck s' (invariant hstep hs hrun) h⟩

end Endings
