/-!
# Kei.Lib.Prog

Programs over a state that may halt, and the rules that reason about them.

A program either returns a value or halts with an error; in both cases the
state it leaves behind stays.  `Triple P x Q E` says what holds of that state:
`Q` after a return, `E` after a halt.  Letting a program halt at any of its
steps is how a process that stops at an arbitrary point is modelled, so `E`
is a statement about every such point.  This module depends only on the Lean
core library.
-/

/-- A program over the state `σ` that returns an `α` or halts with an `ε`. -/
def Prog (σ ε α : Type) : Type := σ → Except ε α × σ

namespace Prog

variable {σ ε α β : Type}

instance : Monad (Prog σ ε) where
  pure a := fun s => (.ok a, s)
  bind x f := fun s =>
    match x s with
    | (.ok a, s') => f a s'
    | (.error e, s') => (.error e, s')

/-- Halt. -/
def halt (e : ε) : Prog σ ε α := fun s => (.error e, s)

/-- Read the state. -/
def read (f : σ → α) : Prog σ ε α := fun s => (.ok (f s), s)

/-- Change the state. -/
def modify (f : σ → σ) : Prog σ ε Unit := fun s => (.ok (), f s)

/-! ## running -/

@[simp] theorem run_pure (a : α) (s : σ) : (pure a : Prog σ ε α) s = (.ok a, s) := rfl

@[simp] theorem run_halt (e : ε) (s : σ) : (halt e : Prog σ ε α) s = (.error e, s) := rfl

@[simp] theorem run_read (f : σ → α) (s : σ) : (read f : Prog σ ε α) s = (.ok (f s), s) := rfl

@[simp] theorem run_modify (f : σ → σ) (s : σ) :
    (modify f : Prog σ ε Unit) s = (.ok (), f s) := rfl

theorem run_bind_ok {x : Prog σ ε α} {f : α → Prog σ ε β} {s s' : σ} {a : α}
    (h : x s = (.ok a, s')) : (x >>= f) s = f a s' := by
  show (match x s with | (.ok a, s') => f a s' | (.error e, s') => (.error e, s')) = _
  rw [h]

theorem run_bind_error {x : Prog σ ε α} {f : α → Prog σ ε β} {s s' : σ} {e : ε}
    (h : x s = (.error e, s')) : (x >>= f) s = (.error e, s') := by
  show (match x s with | (.ok a, s') => f a s' | (.error e, s') => (.error e, s')) = _
  rw [h]

/-! ## triples -/

/-- Run from a state in `P`, the program leaves one in `Q` when it returns and
one in `E` when it halts. -/
def Triple (P : σ → Prop) (x : Prog σ ε α) (Q : α → σ → Prop) (E : σ → Prop) : Prop :=
  ∀ s, P s → match x s with
    | (.ok a, s') => Q a s'
    | (.error _, s') => E s'

variable {P P' : σ → Prop} {Q Q' : α → σ → Prop} {E E' : σ → Prop}

namespace Triple

variable {x : Prog σ ε α}

theorem ok (h : Triple P x Q E) {s s' : σ} {a : α} (hs : P s) (hx : x s = (.ok a, s')) :
    Q a s' := by
  have h' := h s hs
  rwa [hx] at h'

theorem error (h : Triple P x Q E) {s s' : σ} {e : ε} (hs : P s) (hx : x s = (.error e, s')) :
    E s' := by
  have h' := h s hs
  rwa [hx] at h'

theorem conseq (h : Triple P' x Q' E') (hP : ∀ s, P s → P' s) (hQ : ∀ a s, Q' a s → Q a s)
    (hE : ∀ s, E' s → E s) : Triple P x Q E := by
  intro s hs
  have h' := h s (hP s hs)
  cases hx : x s with
  | mk r s' =>
      rw [hx] at h'
      cases r with
      | ok a => exact hQ a s' h'
      | error e => exact hE s' h'

theorem strengthen_pre (h : Triple P' x Q E) (hP : ∀ s, P s → P' s) :
    Triple P x Q E := h.conseq hP (fun _ _ h => h) (fun _ h => h)

theorem weaken_post (h : Triple P x Q' E) (hQ : ∀ a s, Q' a s → Q a s) :
    Triple P x Q E := h.conseq (fun _ h => h) hQ (fun _ h => h)

theorem weaken_halt (h : Triple P x Q E') (hE : ∀ s, E' s → E s) :
    Triple P x Q E := h.conseq (fun _ h => h) (fun _ _ h => h) hE

theorem of_forall (h : ∀ s, P s → Triple (fun s' => s' = s) x Q E) : Triple P x Q E :=
  fun s hs => h s hs s rfl

/-- A postcondition that always holds needs no look at the program. -/
theorem of_post (hQ : ∀ a s, Q a s) (hE : ∀ s, E s) : Triple P x Q E := by
  intro s _
  cases hx : x s with
  | mk r s' =>
      cases r with
      | ok a => exact hQ a s'
      | error e => exact hE s'

theorem pure {a : α} (h : ∀ s, P s → Q a s) : Triple P (pure a : Prog σ ε α) Q E :=
  fun s hs => h s hs

theorem halt {e : ε} (h : ∀ s, P s → E s) : Triple P (halt e : Prog σ ε α) Q E :=
  fun s hs => h s hs

theorem read {f : σ → α} : Triple P (Prog.read f : Prog σ ε α) (fun _ => P) E := fun _ hs => hs

theorem modify {f : σ → σ} {Q : Unit → σ → Prop} (h : ∀ s, P s → Q () (f s)) :
    Triple P (modify f : Prog σ ε Unit) Q E :=
  fun s hs => h s hs

theorem bind {f : α → Prog σ ε β} {R : α → σ → Prop} {Q : β → σ → Prop} (hx : Triple P x R E)
    (hf : ∀ a, Triple (R a) (f a) Q E) : Triple P (x >>= f) Q E := by
  intro s hs
  have h' := hx s hs
  cases hr : x s with
  | mk r s' =>
      rw [hr] at h'
      cases r with
      | ok a => rw [run_bind_ok hr]; exact hf a s' h'
      | error e => rw [run_bind_error hr]; exact h'

theorem ite {c : Prop} [Decidable c] {x y : Prog σ ε α} (hx : c → Triple P x Q E)
    (hy : ¬c → Triple P y Q E) : Triple P (if c then x else y) Q E := by
  by_cases h : c
  · rw [if_pos h]; exact hx h
  · rw [if_neg h]; exact hy h

theorem pre {p : Prop} (hp : ∀ s, P s → p) (h : p → Triple P x Q E) : Triple P x Q E :=
  fun s hs => h (hp s hs) s hs

theorem exists_pre {ι : Type} {P : ι → σ → Prop} (h : ∀ i, Triple (P i) x Q E) :
    Triple (fun s => ∃ i, P i s) x Q E :=
  fun s ⟨i, hs⟩ => h i s hs

theorem and {Q₁ Q₂ : α → σ → Prop} {E₁ E₂ : σ → Prop} (h₁ : Triple P x Q₁ E₁)
    (h₂ : Triple P x Q₂ E₂) : Triple P x (fun a s => Q₁ a s ∧ Q₂ a s) (fun s => E₁ s ∧ E₂ s) := by
  intro s hs
  have h₁' := h₁ s hs
  have h₂' := h₂ s hs
  cases hx : x s with
  | mk r s' =>
      rw [hx] at h₁' h₂'
      cases r with
      | ok a => exact ⟨h₁', h₂'⟩
      | error e => exact ⟨h₁', h₂'⟩

theorem returns (h : Triple P x Q (fun _ => False)) {s : σ} (hs : P s) :
    ∃ a s', x s = (.ok a, s') ∧ Q a s' := by
  have h' := h s hs
  cases hx : x s with
  | mk r s' =>
      rw [hx] at h'
      cases r with
      | ok a => exact ⟨a, s', rfl, h'⟩
      | error e => exact h'.elim

theorem snd (h : Triple P x (fun _ => E) E) {s : σ} (hs : P s) : E (x s).2 := by
  have h' := h s hs
  cases hx : x s with
  | mk r s' =>
      rw [hx] at h'
      cases r with
      | ok a => exact h'
      | error e => exact h'

end Triple

/-! ## invariants -/

/-- The program keeps `I`, however it ends. -/
def Keeps (I : σ → Prop) (x : Prog σ ε α) : Prop := Triple I x (fun _ => I) I

namespace Keeps

variable {I : σ → Prop}

theorem pure (a : α) : Keeps I (pure a : Prog σ ε α) := fun _ hs => hs

theorem halt (e : ε) : Keeps I (halt e : Prog σ ε α) := fun _ hs => hs

theorem read (f : σ → α) : Keeps I (read f : Prog σ ε α) := fun _ hs => hs

theorem modify {f : σ → σ} (h : ∀ s, I s → I (f s)) : Keeps I (modify f : Prog σ ε Unit) :=
  fun s hs => h s hs

theorem bind {x : Prog σ ε α} {f : α → Prog σ ε β} (hx : Keeps I x) (hf : ∀ a, Keeps I (f a)) :
    Keeps I (x >>= f) := Triple.bind hx hf

theorem ite {c : Prop} [Decidable c] {x y : Prog σ ε α} (hx : c → Keeps I x)
    (hy : ¬c → Keeps I y) : Keeps I (if c then x else y) := Triple.ite hx hy

theorem snd {x : Prog σ ε α} (h : Keeps I x) {s : σ} (hs : I s) : I (x s).2 := Triple.snd h hs

theorem of_snd {x : Prog σ ε α} (h : ∀ s, I s → I (x s).2) : Keeps I x := by
  intro s hs
  have h' := h s hs
  cases hx : x s with
  | mk r s' =>
      rw [hx] at h'
      cases r with
      | ok a => exact h'
      | error e => exact h'

end Keeps

end Prog
