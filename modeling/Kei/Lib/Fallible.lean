/-!
# Kei.Lib.Fallible

Computations that may be rejected with an error, as `Except ε`.

Every function of the model that the source writes with `?` and `ensure!`
returns an `Except`.  The lemmas here invert and build such computations one
step at a time, and carry an invariant through a loop that stops at the first
rejected element.  This module depends only on the Lean core library.
-/

namespace Fallible

/-! ## single steps -/

theorem bind_eq_ok {x : Except ε α} {f : α → Except ε β} {b : β} :
    (x >>= f) = .ok b ↔ ∃ a, x = .ok a ∧ f a = .ok b := by
  cases x with
  | error e =>
      constructor
      · intro h; contradiction
      · intro ⟨_, ha, _⟩; contradiction
  | ok a =>
      constructor
      · intro h; exact ⟨a, rfl, h⟩
      · intro ⟨a', ha, hb⟩
        cases ha
        exact hb

variable {a : α}

@[simp] theorem ok_bind {f : α → Except ε β} : (Except.ok a >>= f) = f a := rfl

variable {e : ε}

@[simp] theorem error_bind {f : α → Except ε β} :
    ((Except.error e : Except ε α) >>= f) = .error e := rfl

@[simp] theorem map_ok {f : α → β} : (f <$> (Except.ok a : Except ε α)) = .ok (f a) := rfl

@[simp] theorem map_error {f : α → β} : (f <$> (Except.error e : Except ε α)) = .error e := rfl

@[simp] theorem pure_eq_ok {a b : α} : (pure a : Except ε α) = .ok b ↔ a = b := by
  constructor
  · intro h; exact Except.ok.inj h
  · intro h; rw [h]; rfl

/-- The source's `ensure!(p, e)`: stop with `e` unless `p` holds. -/
def ensure (p : Prop) [Decidable p] (e : ε) : Except ε Unit := if p then .ok () else .error e

@[simp] theorem ensure_eq_ok {p : Prop} [Decidable p] {u : Unit} : ensure p e = .ok u ↔ p := by
  unfold ensure
  by_cases h : p
  · simp [h]
  · simp [h]

@[simp] theorem ensure_true : ensure True e = .ok () := if_pos trivial

@[simp] theorem ensure_false : ensure False e = .error e := if_neg id

theorem ensure_of {p : Prop} [Decidable p] (h : p) : ensure p e = .ok () := if_pos h

/-- A missing value is the error `e`. -/
def require (e : ε) : Option α → Except ε α
  | some a => .ok a
  | none => .error e

@[simp] theorem require_eq_ok {o : Option α} : require e o = .ok a ↔ o = some a := by
  cases o with
  | none => simp [require]
  | some b => simp [require]

@[simp] theorem require_some : require e (some a) = .ok a := rfl

@[simp] theorem require_none : require e (none : Option α) = .error e := rfl

/-- Equality of results is decidable when both sides are. -/
instance decEqExcept [DecidableEq ε] [DecidableEq α] : DecidableEq (Except ε α)
  | .ok a, .ok b => decidable_of_iff (a = b) ⟨congrArg _, Except.ok.inj⟩
  | .error a, .error b => decidable_of_iff (a = b) ⟨congrArg _, Except.error.inj⟩
  | .ok _, .error _ => isFalse (fun h => by contradiction)
  | .error _, .ok _ => isFalse (fun h => by contradiction)

/-! ## loops -/

variable {f : σ → α → Except ε σ}

theorem foldlM_cons_eq_ok {l : List α} {s s' : σ} :
    (a :: l).foldlM f s = .ok s' ↔ ∃ m, f s a = .ok m ∧ l.foldlM f m = .ok s' := by
  rw [List.foldlM_cons, bind_eq_ok]

theorem foldlM_preserves {P : σ → Prop} (hstep : ∀ s a s', f s a = .ok s' → P s → P s') :
    ∀ (l : List α) (s s' : σ), l.foldlM f s = .ok s' → P s → P s' := by
  intro l
  induction l with
  | nil =>
      intro s s' h hs
      rw [List.foldlM_nil, pure_eq_ok] at h
      exact h ▸ hs
  | cons a l ih =>
      intro s s' h hs
      obtain ⟨m, hm, hl⟩ := foldlM_cons_eq_ok.mp h
      exact ih m s' hl (hstep s a m hm hs)

theorem foldlM_append_eq_ok {l₁ l₂ : List α} {s s' : σ} :
    (l₁ ++ l₂).foldlM f s = .ok s' ↔ ∃ m, l₁.foldlM f s = .ok m ∧ l₂.foldlM f m = .ok s' := by
  rw [List.foldlM_append, bind_eq_ok]

end Fallible
