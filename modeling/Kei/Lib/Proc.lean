import Mathlib.Data.List.Induction

/-!
# Kei.Lib.Proc

Processes that make calls, and pools of them that run interleaved.

A process is a tree: it returns, stops, or makes a call and goes on with the
answer.  What it did so far is its trace.  `wp` reasons about one process with
every answer its calls may get; `Pool.run` interleaves processes over a shared
state in the order of a schedule, and `Pool.run_steps` says that in a pool
each process still does what it does alone.
-/

/-- A process that makes calls `op` with answers in `Resp op`. -/
inductive Proc (Op : Type) (Resp : Op → Type) (α : Type) : Type where
  | ret (a : α)
  | stop
  | call (op : Op) (k : Resp op → Proc Op Resp α)

namespace Proc

variable {Op : Type} {Resp : Op → Type} {α β : Type}

def bind : Proc Op Resp α → (α → Proc Op Resp β) → Proc Op Resp β
  | .ret a, f => f a
  | .stop, _ => .stop
  | .call op k, f => .call op (fun r => (k r).bind f)

instance : Monad (Proc Op Resp) where
  pure := .ret
  bind := bind

/-- The process that makes one call. -/
def perform (op : Op) : Proc Op Resp (Resp op) := .call op .ret

/-- A call with its answer. -/
structure Event (Op : Type) (Resp : Op → Type) where
  op : Op
  resp : Resp op

abbrev Trace (Op : Type) (Resp : Op → Type) := List (Event Op Resp)

/-- `Steps p t q`: with the answers of the trace `t`, the process `p` gets to `q`. -/
inductive Steps : Proc Op Resp α → Trace Op Resp → Proc Op Resp α → Prop where
  | refl (p : Proc Op Resp α) : Steps p [] p
  | call {op : Op} {k : Resp op → Proc Op Resp α} {r : Resp op} {t : Trace Op Resp}
      {q : Proc Op Resp α} (h : Steps (k r) t q) : Steps (.call op k) (⟨op, r⟩ :: t) q

variable {p : Proc Op Resp α}

theorem Steps.snoc {t : Trace Op Resp} {op : Op} {k : Resp op → Proc Op Resp α}
    (h : Steps p t (.call op k)) (r : Resp op) : Steps p (t ++ [⟨op, r⟩]) (k r) := by
  generalize hq : Proc.call op k = q at h
  induction h with
  | refl p =>
      subst hq
      exact Steps.call (Steps.refl (k r))
  | call h ih => exact Steps.call (ih hq)

/-- A composed process is still in its first part, or done with it. -/
theorem steps_bind {f : α → Proc Op Resp β} {t : Trace Op Resp} {q : Proc Op Resp β}
    (h : Steps (p.bind f) t q) :
    (∃ q', Steps p t q' ∧ q = q'.bind f) ∨
      ∃ t₁ t₂ a, t = t₁ ++ t₂ ∧ Steps p t₁ (.ret a) ∧ Steps (f a) t₂ q := by
  induction p generalizing t with
  | ret a => exact .inr ⟨[], t, a, rfl, Steps.refl _, h⟩
  | stop =>
      cases h
      exact .inl ⟨.stop, Steps.refl _, rfl⟩
  | call op k ih =>
      cases h with
      | refl => exact .inl ⟨.call op k, Steps.refl _, rfl⟩
      | call h =>
          rcases ih _ h with ⟨q', hsteps, hq⟩ | ⟨t₁, t₂, a, ht, hsteps, hrest⟩
          · exact .inl ⟨q', Steps.call hsteps, hq⟩
          · exact .inr ⟨_ :: t₁, t₂, a, by rw [ht]; rfl, Steps.call hsteps, hrest⟩

/-! ## reasoning about one process -/

/-- From the trace `t` on, the process keeps `Φ` and returns in `Q`. -/
def wp (Φ : Trace Op Resp → Prop) (Q : α → Trace Op Resp → Prop) :
    Proc Op Resp α → Trace Op Resp → Prop
  | .ret a, t => Φ t ∧ Q a t
  | .stop, t => Φ t
  | .call op k, t => Φ t ∧ ∀ r, wp Φ Q (k r) (t ++ [⟨op, r⟩])

variable {Φ : Trace Op Resp → Prop} {Q Q' : α → Trace Op Resp → Prop} {t : Trace Op Resp}

theorem wp_ret {a : α} : wp Φ Q (pure a) t ↔ Φ t ∧ Q a t := Iff.rfl

theorem wp_stop : wp Φ Q .stop t ↔ Φ t := Iff.rfl

theorem wp_perform {op : Op} {Q : Resp op → Trace Op Resp → Prop} :
    wp Φ Q (perform op) t ↔
      Φ t ∧ ∀ r, Φ (t ++ [⟨op, r⟩]) ∧ Q r (t ++ [⟨op, r⟩]) := Iff.rfl

theorem wp_now (h : wp Φ Q p t) : Φ t := by
  cases p with
  | ret a => exact h.1
  | stop => exact h
  | call op k => exact h.1

theorem wp_mono (hQ : ∀ a t, Q a t → Q' a t) (h : wp Φ Q p t) : wp Φ Q' p t := by
  induction p generalizing t with
  | ret a => exact ⟨h.1, hQ a t h.2⟩
  | stop => exact h
  | call op k ih => exact ⟨h.1, fun r => ih r (h.2 r)⟩

theorem wp_bind {f : α → Proc Op Resp β} {Q : β → Trace Op Resp → Prop}
    (h : wp Φ (fun a t => wp Φ Q (f a) t) p t) : wp Φ Q (p >>= f) t := by
  induction p generalizing t with
  | ret a => exact h.2
  | stop => exact h
  | call op k ih => exact ⟨h.1, fun r => ih r (h.2 r)⟩

theorem wp_steps {p q : Proc Op Resp α} {t' : Trace Op Resp} (h : wp Φ Q p t)
    (hsteps : Steps p t' q) : Φ (t ++ t') ∧ ∀ a, q = .ret a → Q a (t ++ t') := by
  induction hsteps generalizing t with
  | refl p =>
      rw [List.append_nil]
      refine ⟨wp_now h, fun a hq => ?_⟩
      rw [hq] at h
      exact h.2
  | @call op k r t'' q hrest ih =>
      have h' := ih (h.2 r)
      rwa [List.append_assoc] at h'

/-! ## one process alone -/

section alone

variable {σ χ : Type} (answer : σ → (op : Op) → χ → Resp op × σ) (choices : Nat → χ)

/-- Run a process on a state, with the number of its next call; the call with the number `n` is
answered with the choice `choices n`. -/
def exec : Proc Op Resp α → Nat × σ → Option α × (Nat × σ)
  | .ret a, s => (some a, s)
  | .stop, s => (none, s)
  | .call op k, (n, s) =>
      exec (k (answer s op (choices n)).1) (n + 1, (answer s op (choices n)).2)

theorem exec_bind (p : Proc Op Resp α) (f : α → Proc Op Resp β) (s : Nat × σ) :
    exec answer choices (p >>= f) s =
      match exec answer choices p s with
      | (some a, s') => exec answer choices (f a) s'
      | (none, s') => (none, s') := by
  induction p generalizing s with
  | ret a => rfl
  | stop => rfl
  | call op k ih => exact ih _ _

end alone

/-! ## pools -/

/-- Processes over a shared state, with all that they did in order. -/
structure Pool (Op : Type) (Resp : Op → Type) (σ α : Type) where
  procs : List (Proc Op Resp α)
  shared : σ
  log : List (Nat × Event Op Resp)

namespace Pool

variable {σ χ : Type} (answer : σ → (op : Op) → χ → Resp op × σ)

/-- The process `c.1` makes its next call, which is answered with the choice `c.2`. -/
def step (pool : Pool Op Resp σ α) (c : Nat × χ) : Pool Op Resp σ α :=
  match pool.procs[c.1]? with
  | some (.call op k) =>
      let (r, shared) := answer pool.shared op c.2
      { procs := pool.procs.set c.1 (k r), shared := shared,
        log := pool.log ++ [(c.1, ⟨op, r⟩)] }
  | _ => pool

def run (pool : Pool Op Resp σ α) (schedule : List (Nat × χ)) : Pool Op Resp σ α :=
  schedule.foldl (step answer) pool

/-- The trace of one process. -/
def eventsOf (i : Nat) (log : List (Nat × Event Op Resp)) : Trace Op Resp :=
  (log.filter (fun e => e.1 = i)).map (·.2)

theorem mem_eventsOf {i : Nat} {log : List (Nat × Event Op Resp)} {e : Event Op Resp} :
    e ∈ eventsOf i log ↔ (i, e) ∈ log := by
  simp [eventsOf]

theorem eventsOf_snoc (i j : Nat) (log : List (Nat × Event Op Resp)) (e : Event Op Resp) :
    eventsOf i (log ++ [(j, e)]) = eventsOf i log ++ if j = i then [e] else [] := by
  unfold eventsOf
  rw [List.filter_append, List.map_append]
  by_cases h : j = i <;> simp [h]

theorem step_cases (pool : Pool Op Resp σ α) (c : Nat × χ) :
    step answer pool c = pool ∨ ∃ op k, pool.procs[c.1]? = some (.call op k) ∧
      step answer pool c =
        { procs := pool.procs.set c.1 (k (answer pool.shared op c.2).1),
          shared := (answer pool.shared op c.2).2,
          log := pool.log ++ [(c.1, ⟨op, (answer pool.shared op c.2).1⟩)] } := by
  unfold step
  split
  · next op k h => exact .inr ⟨op, k, h, rfl⟩
  · exact .inl rfl

variable {answer}

theorem run_steps {pool : Pool Op Resp σ α} (hlog : pool.log = []) {i : Nat}
    {p : Proc Op Resp α} (hp : pool.procs[i]? = some p) (schedule : List (Nat × χ)) :
    ∃ q, (run answer pool schedule).procs[i]? = some q ∧
      Steps p (eventsOf i (run answer pool schedule).log) q := by
  induction schedule using List.reverseRecOn with
  | nil =>
      refine ⟨p, hp, ?_⟩
      have hnil : eventsOf i (run answer pool []).log = [] := by
        rw [run, List.foldl_nil, hlog]
        rfl
      rw [hnil]
      exact Steps.refl p
  | append_singleton schedule c ih =>
      obtain ⟨q, hq, hsteps⟩ := ih
      have hrun : run answer pool (schedule ++ [c]) = step answer (run answer pool schedule) c := by
        rw [run, List.foldl_append]
        rfl
      rw [hrun]
      generalize run answer pool schedule = pool' at hq hsteps
      rcases step_cases answer pool' c with hsame | ⟨op, k, hcall, hstep⟩
      · rw [hsame]
        exact ⟨q, hq, hsteps⟩
      · rw [hstep, eventsOf_snoc]
        by_cases hi : c.1 = i
        · subst hi
          rw [hcall] at hq
          cases hq
          refine ⟨k (answer pool'.shared op c.2).1, ?_, ?_⟩
          · exact List.getElem?_set_self (List.getElem?_eq_some_iff.mp hcall).1
          · rw [if_pos rfl]
            exact hsteps.snoc _
        · refine ⟨q, ?_, ?_⟩
          · rw [List.getElem?_set_ne hi]
            exact hq
          · rw [if_neg hi, List.append_nil]
            exact hsteps

/-- What every answered call keeps holds of every run, of its log and its shared state. -/
theorem run_invariant {pool : Pool Op Resp σ α} {I : List (Nat × Event Op Resp) → σ → Prop}
    (hinit : I pool.log pool.shared)
    (hstep : ∀ log s i op c, i < pool.procs.length → I log s →
      I (log ++ [(i, ⟨op, (answer s op c).1⟩)]) (answer s op c).2)
    (schedule : List (Nat × χ)) :
    I (run answer pool schedule).log (run answer pool schedule).shared := by
  suffices h : (run answer pool schedule).procs.length = pool.procs.length ∧
      I (run answer pool schedule).log (run answer pool schedule).shared from h.2
  induction schedule using List.reverseRecOn with
  | nil => exact ⟨rfl, hinit⟩
  | append_singleton schedule c ih =>
      have hrun : run answer pool (schedule ++ [c]) = step answer (run answer pool schedule) c := by
        rw [run, List.foldl_append]
        rfl
      rw [hrun]
      generalize run answer pool schedule = pool' at ih
      obtain ⟨hlength, hinv⟩ := ih
      rcases step_cases answer pool' c with hsame | ⟨op, k, hcall, hstep'⟩
      · rw [hsame]
        exact ⟨hlength, hinv⟩
      · rw [hstep']
        refine ⟨?_, hstep _ _ _ _ _ ?_ hinv⟩
        · rw [List.length_set, hlength]
        · rw [← hlength]
          exact (List.getElem?_eq_some_iff.mp hcall).1

end Pool
end Proc
