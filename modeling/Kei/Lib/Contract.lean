import Kei.Lib.Proc

/-!
# Kei.Lib.Contract

Processes whose answers can be relied on.

A contract says which answers a process may rely on, what it keeps at every
point, and with what it may stop.  `Meets` is `wp` under such answers, and
`meets_steps` takes it along the steps of the process.
-/

namespace Proc

variable {Op : Type} {Resp : Op → Type} {α β : Type}

structure Contract (Op : Type) (Resp : Op → Type) where
  /-- The answers that may come after a trace. -/
  rely : Trace Op Resp → Event Op Resp → Prop
  keeps : Trace Op Resp → Prop
  stops : Trace Op Resp → Prop

namespace Contract

variable {C : Contract Op Resp} {Q Q' : α → Trace Op Resp → Prop} {t : Trace Op Resp}

/-- From the trace `t` on, the process keeps the contract and returns in `Q`, as long as the
answers can be relied on. -/
def Meets (C : Contract Op Resp) (Q : α → Trace Op Resp → Prop) :
    Proc Op Resp α → Trace Op Resp → Prop
  | .ret a, t => C.keeps t ∧ Q a t
  | .stop, t => C.keeps t ∧ C.stops t
  | .call op k, t => C.keeps t ∧ ∀ r, C.rely t ⟨op, r⟩ → Meets C Q (k r) (t ++ [⟨op, r⟩])

theorem meets_ret {a : α} : C.Meets Q (pure a) t ↔ C.keeps t ∧ Q a t := Iff.rfl

theorem meets_stop : C.Meets Q .stop t ↔ C.keeps t ∧ C.stops t := Iff.rfl

theorem meets_perform {op : Op} {Q : Resp op → Trace Op Resp → Prop} :
    C.Meets Q (perform op) t ↔ C.keeps t ∧ ∀ r, C.rely t ⟨op, r⟩ →
      C.keeps (t ++ [⟨op, r⟩]) ∧ Q r (t ++ [⟨op, r⟩]) := Iff.rfl

variable {p : Proc Op Resp α}

theorem meets_keeps (h : C.Meets Q p t) : C.keeps t := by
  cases p with
  | ret a => exact h.1
  | stop => exact h.1
  | call op k => exact h.1

/-- What a process returns with, it returns with while it keeps the contract. -/
theorem meets_keeping (hQ : ∀ a t, C.keeps t → Q a t → Q' a t) (h : C.Meets Q p t) :
    C.Meets Q' p t := by
  induction p generalizing t with
  | ret a => exact ⟨h.1, hQ a t h.1 h.2⟩
  | stop => exact h
  | call op k ih => exact ⟨h.1, fun r hr => ih r (h.2 r hr)⟩

theorem meets_mono (hQ : ∀ a t, Q a t → Q' a t) (h : C.Meets Q p t) :
    C.Meets Q' p t := meets_keeping (fun a t _ => hQ a t) h

theorem meets_bind {f : α → Proc Op Resp β} {Q : β → Trace Op Resp → Prop}
    (h : C.Meets (fun a t => C.Meets Q (f a) t) p t) : C.Meets Q (p >>= f) t := by
  induction p generalizing t with
  | ret a => exact h.2
  | stop => exact h
  | call op k ih => exact ⟨h.1, fun r hr => ih r (h.2 r hr)⟩

theorem meets_steps {p q : Proc Op Resp α} {u : Trace Op Resp} (h : C.Meets Q p t)
    (hsteps : Steps p u q) (hrely : ∀ before e after, u = before ++ e :: after →
      C.rely (t ++ before) e) : C.Meets Q q (t ++ u) := by
  induction hsteps generalizing t with
  | refl p => simpa using h
  | @call op k r u q hrest ih =>
      have hfirst : C.rely t ⟨op, r⟩ := by simpa using hrely [] ⟨op, r⟩ u rfl
      have hnext := ih (h.2 r hfirst) (fun before e after hu => by
        have := hrely (⟨op, r⟩ :: before) e after (by simp [hu])
        simpa using this)
      simpa using hnext

end Contract

/-- A trace whose answers are those of a provider, which knows what came before. -/
def Follows (provider : Trace Op Resp → (op : Op) → Resp op) (t : Trace Op Resp) : Prop :=
  ∀ before e after, t = before ++ e :: after → e.resp = provider before e.op

/-- **A process that follows a provider comes to its end.** -/
theorem follows_ends (provider : Trace Op Resp → (op : Op) → Resp op) (p : Proc Op Resp α) :
    ∃ t q, Follows provider t ∧ Steps p t q ∧ (q = .stop ∨ ∃ a, q = .ret a) := by
  induction p generalizing provider with
  | ret a => exact ⟨[], .ret a, by simp [Follows], .refl _, .inr ⟨a, rfl⟩⟩
  | stop => exact ⟨[], .stop, by simp [Follows], .refl _, .inl rfl⟩
  | call op k ih =>
      let first : Event Op Resp := ⟨op, provider [] op⟩
      obtain ⟨t, q, hfollows, hsteps, hend⟩ :=
        ih (provider [] op) (fun before => provider (first :: before))
      have hall : Follows provider (first :: t) := by
        intro before e after ht
        cases before with
        | nil =>
            cases ht
            rfl
        | cons e' before =>
            cases ht
            exact hfollows before e after rfl
      exact ⟨first :: t, q, hall, hsteps.call, hend⟩

end Proc
