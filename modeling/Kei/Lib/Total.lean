import Kei.Lib.Rely

/-!
# Kei.Lib.Total

Processes that run alone, and end, as long as their calls are answered as
allowed.

`EnsuresUnder allowed Q p s` says that from `s` on the process returns in `Q`
whatever is chosen of what is allowed.  `Ends` is the judgement for programs
that may fail: from a state in `P` the program ends, with a value in `R` or
with an error in `E`.
-/

namespace Proc

variable {Op : Type} {Resp : Op → Type} {α β σ χ : Type}
  {answer : σ → (op : Op) → χ → Resp op × σ} {allowed allowed' : Op → χ → Prop}
  {Q Q' : α → σ → Prop}

/-- Whatever is chosen of what is allowed, the process returns in `Q`. -/
def EnsuresUnder (answer : σ → (op : Op) → χ → Resp op × σ) (allowed : Op → χ → Prop)
    (Q : α → σ → Prop) : Proc Op Resp α → σ → Prop
  | .ret a, s => Q a s
  | .stop, _ => False
  | .call op k, s => ∀ c, allowed op c →
      EnsuresUnder answer allowed Q (k (answer s op c).1) (answer s op c).2

variable {p : Proc Op Resp α}

theorem ensuresUnder_mono {s : σ} (hQ : ∀ a s, Q a s → Q' a s)
    (h : EnsuresUnder answer allowed Q p s) : EnsuresUnder answer allowed Q' p s := by
  induction p generalizing s with
  | ret a => exact hQ a s h
  | stop => exact h
  | call op k ih => exact fun c hc => ih _ (h c hc)

theorem ensuresUnder_fewer {s : σ} (hfewer : ∀ op c, allowed' op c → allowed op c)
    (h : EnsuresUnder answer allowed Q p s) : EnsuresUnder answer allowed' Q p s := by
  induction p generalizing s with
  | ret a => exact h
  | stop => exact h
  | call op k ih => exact fun c hc => ih _ (h c (hfewer op c hc))

/-- Where every call has an allowed answer, there is an end with all that is ensured. -/
theorem ensuresUnder_both {s : σ} (hsome : ∀ op, ∃ c, allowed op c)
    (h : EnsuresUnder answer allowed Q p s) (h' : EnsuresUnder answer allowed Q' p s) :
    ∃ a s', Q a s' ∧ Q' a s' := by
  induction p generalizing s with
  | ret a => exact ⟨a, s, h, h'⟩
  | stop => exact h.elim
  | call op k ih =>
      obtain ⟨c, hc⟩ := hsome op
      exact ih _ (h c hc) (h' c hc)

theorem ensuresUnder_seq {f : α → Proc Op Resp β} {Q' : β → σ → Prop} {s : σ}
    (h : EnsuresUnder answer allowed Q p s)
    (hf : ∀ a s, Q a s → EnsuresUnder answer allowed Q' (f a) s) :
    EnsuresUnder answer allowed Q' (p >>= f) s := by
  induction p generalizing s with
  | ret a => exact hf a s h
  | stop => exact h
  | call op k ih => exact fun c hc => ih _ (h c hc)

/-! ## programs that may fail -/

section failing

variable {ε ε' : Type} {P P' : σ → Prop} {R R' : α → σ → Prop} {E E' : ε → σ → Prop}

/-- From a state in `P` the program ends, in `R` or with an error in `E`. -/
def Ends (answer : σ → (op : Op) → χ → Resp op × σ) (allowed : Op → χ → Prop) (P : σ → Prop)
    (x : ExceptT ε (Proc Op Resp) α) (R : α → σ → Prop) (E : ε → σ → Prop) : Prop :=
  ∀ s, P s → EnsuresUnder answer allowed (Outcome R E) x.run s

theorem ends_pure {a : α} (h : ∀ s, P s → R a s) : Ends answer allowed P (pure a) R E := h

theorem ends_throw {e : ε} (h : ∀ s, P s → E e s) :
    Ends answer allowed P (throw e : ExceptT ε (Proc Op Resp) α) R E := h

variable {x : ExceptT ε (Proc Op Resp) α}

theorem ends_bind {f : α → ExceptT ε (Proc Op Resp) β} {R' : β → σ → Prop}
    (hx : Ends answer allowed P x R E) (hf : ∀ a, Ends answer allowed (R a) (f a) R' E) :
    Ends answer allowed P (x >>= f) R' E := by
  refine fun s hs => ensuresUnder_seq (hx s hs) fun r s h => ?_
  cases r with
  | ok a => exact hf a s h
  | error e => exact h

theorem ends_lift {op : Op} {R : Resp op → σ → Prop}
    (h : ∀ s c, allowed op c → P s → R (answer s op c).1 (answer s op c).2) :
    Ends answer allowed P (ExceptT.lift (perform op) : ExceptT ε (Proc Op Resp) (Resp op)) R E :=
  fun s hs c hc => h s c hc hs

theorem ends_try (hx : Ends answer allowed P x R E) {E' : ε' → σ → Prop} :
    Ends answer allowed P (ExceptT.lift x.run : ExceptT ε' (Proc Op Resp) (Except ε α))
      (Outcome R E) E' := by
  intro s hs
  show EnsuresUnder answer allowed _ (x.run >>= fun r => pure (Except.ok r)) s
  exact ensuresUnder_seq (hx s hs) fun r s h => h

theorem ends_adapt {f : ε → ε'} {E' : ε' → σ → Prop} (hx : Ends answer allowed P x R E)
    (hE : ∀ e s, E e s → E' (f e) s) : Ends answer allowed P (ExceptT.adapt f x) R E' := by
  intro s hs
  show EnsuresUnder answer allowed _ (x.run >>= fun r => pure (r.mapError f)) s
  refine ensuresUnder_seq (hx s hs) fun r s h => ?_
  cases r with
  | ok a => exact h
  | error e => exact hE e s h

theorem ends_ite {c : Prop} [Decidable c] {x y : ExceptT ε (Proc Op Resp) α}
    (hx : c → Ends answer allowed P x R E) (hy : ¬c → Ends answer allowed P y R E) :
    Ends answer allowed P (if c then x else y) R E := by
  by_cases h : c
  · rw [if_pos h]; exact hx h
  · rw [if_neg h]; exact hy h

theorem ends_strengthen_pre (h : Ends answer allowed P x R E) (hP : ∀ s, P' s → P s) :
    Ends answer allowed P' x R E := fun s hs => h s (hP s hs)

theorem ends_pre {p : Prop} (hp : ∀ s, P s → p) (h : p → Ends answer allowed P x R E) :
    Ends answer allowed P x R E :=
  fun s hs => h (hp s hs) s hs

/-- The rule of sequence, where the value of the first half is known. -/
theorem ends_bind_eq {f : α → ExceptT ε (Proc Op Resp) β} {v : α} {Q : σ → Prop} {R' : β → σ → Prop}
    (hx : Ends answer allowed P x (fun a s => a = v ∧ Q s) E)
    (hf : Ends answer allowed Q (f v) R' E) : Ends answer allowed P (x >>= f) R' E := by
  refine ends_bind hx fun a => ends_pre (fun s h => h.1) fun ha => ?_
  subst ha
  exact ends_strengthen_pre hf fun s h => h.2

end failing

end Proc
