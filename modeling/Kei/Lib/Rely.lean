import Kei.Lib.Proc
import Mathlib.Logic.Relation

/-!
# Kei.Lib.Rely

Processes over a state that others change too, and that may stop at any point.

Between two calls of a process the surroundings take any number of `rely`
steps.  `Safe I Q p s` says that, from `s` on, `I` holds at every point of `p`
and `Q` where it returns; its rules ask of an assertion between two calls that
it is stable under `rely`.  `Config.Step` runs one process at a time, stops it
wherever it stands and starts another, and `runs_invariant` is what safe
processes keep over all such runs.
-/

namespace Proc

open Relation

variable {Op : Type} {Resp : Op → Type} {α β σ χ : Type}
  {answer : σ → (op : Op) → χ → Resp op × σ} {rely idle : σ → σ → Prop}
  {I : σ → Prop} {Q Q' : α → σ → Prop}

/-- Steps of the surroundings keep `P`. -/
def Stable (rely : σ → σ → Prop) (P : σ → Prop) : Prop := ∀ s s', rely s s' → P s → P s'

theorem Stable.and {P P' : σ → Prop} (h : Stable rely P) (h' : Stable rely P') :
    Stable rely (fun s => P s ∧ P' s) :=
  fun s s' hstep hs => ⟨h s s' hstep hs.1, h' s s' hstep hs.2⟩

theorem Stable.or {P P' : σ → Prop} (h : Stable rely P) (h' : Stable rely P') :
    Stable rely (fun s => P s ∨ P' s) :=
  fun s s' hstep hs => hs.imp (h s s' hstep) (h' s s' hstep)

theorem Stable.exists {ι : Sort*} {P : ι → σ → Prop} (h : ∀ i, Stable rely (P i)) :
    Stable rely (fun s => ∃ i, P i s) :=
  fun s s' hstep ⟨i, hs⟩ => ⟨i, h i s s' hstep hs⟩

theorem Stable.imp {p : Prop} {P : σ → Prop} (h : p → Stable rely P) :
    Stable rely (fun s => p → P s) :=
  fun s s' hstep hs hp => h hp s s' hstep (hs hp)

theorem stable_const {p : Prop} : Stable rely (fun _ : σ => p) := fun _ _ _ h => h

theorem Stable.star {P : σ → Prop} (h : Stable rely P) {s s' : σ} (hs : P s)
    (hsteps : ReflTransGen rely s s') : P s' := by
  induction hsteps with
  | refl => exact hs
  | tail _ hstep ih => exact h _ _ hstep ih

/-! ## safe processes -/

/-- Whatever the surroundings do, `I` holds at every point and `Q` at the end. -/
def Safe (answer : σ → (op : Op) → χ → Resp op × σ) (rely : σ → σ → Prop) (I : σ → Prop)
    (Q : α → σ → Prop) : Proc Op Resp α → σ → Prop
  | .ret a, s => ∀ s', ReflTransGen rely s s' → I s' ∧ Q a s'
  | .stop, s => ∀ s', ReflTransGen rely s s' → I s'
  | .call op k, s => ∀ s', ReflTransGen rely s s' →
      I s' ∧ ∀ c, Safe answer rely I Q (k (answer s' op c).1) (answer s' op c).2

variable {s : σ}

theorem safe_pure {P : σ → Prop} (hP : Stable rely P) (hI : ∀ s, P s → I s) {a : α}
    (hQ : ∀ s, P s → Q a s) (hs : P s) : Safe answer rely I Q (pure a) s :=
  fun s' hsteps => ⟨hI s' (hP.star hs hsteps), hQ s' (hP.star hs hsteps)⟩

/-- One call, under an assertion that is stable until it is made. -/
theorem safe_perform {P : σ → Prop} (hP : Stable rely P) (hI : ∀ s, P s → I s) {op : Op}
    {f : Resp op → Proc Op Resp α}
    (hcall : ∀ s, P s → ∀ c, Safe answer rely I Q (f (answer s op c).1) (answer s op c).2)
    (hs : P s) : Safe answer rely I Q (perform op >>= f) s :=
  fun s' hsteps => ⟨hI s' (hP.star hs hsteps), fun c => hcall s' (hP.star hs hsteps) c⟩

variable {p : Proc Op Resp α}

theorem safe_mono (hQ : ∀ a s, Q a s → Q' a s) (h : Safe answer rely I Q p s) :
    Safe answer rely I Q' p s := by
  induction p generalizing s with
  | ret a => exact fun s' hsteps => ⟨(h s' hsteps).1, hQ a s' (h s' hsteps).2⟩
  | stop => exact h
  | call op k ih => exact fun s' hsteps => ⟨(h s' hsteps).1, fun c => ih _ ((h s' hsteps).2 c)⟩

theorem safe_weaken {I' : σ → Prop} (hI : ∀ s, I s → I' s) (h : Safe answer rely I Q p s) :
    Safe answer rely I' Q p s := by
  induction p generalizing s with
  | ret a => exact fun s' hsteps => ⟨hI s' (h s' hsteps).1, (h s' hsteps).2⟩
  | stop => exact fun s' hsteps => hI s' (h s' hsteps)
  | call op k ih =>
      exact fun s' hsteps => ⟨hI s' (h s' hsteps).1, fun c => ih _ ((h s' hsteps).2 c)⟩

/-- The rule of sequence, from where the first half returned. -/
theorem safe_seq {f : α → Proc Op Resp β} {Q' : β → σ → Prop} (h : Safe answer rely I Q p s)
    (hf : ∀ a s, Safe answer rely I Q (.ret a) s → Safe answer rely I Q' (f a) s) :
    Safe answer rely I Q' (p >>= f) s := by
  induction p generalizing s with
  | ret a => exact hf a s h
  | stop => exact h
  | call op k ih => exact fun s' hsteps => ⟨(h s' hsteps).1, fun c => ih _ ((h s' hsteps).2 c)⟩

theorem safe_bind {f : α → Proc Op Resp β} {Q : β → σ → Prop}
    (h : Safe answer rely I (fun a s => Safe answer rely I Q (f a) s) p s) :
    Safe answer rely I Q (p >>= f) s := safe_seq h fun _ s h => (h s .refl).2

theorem safe_ite {c : Prop} [Decidable c] {p q : Proc Op Resp α} (hp : c → Safe answer rely I Q p s)
    (hq : ¬c → Safe answer rely I Q q s) : Safe answer rely I Q (if c then p else q) s := by
  by_cases h : c
  · rw [if_pos h]; exact hp h
  · rw [if_neg h]; exact hq h

theorem Safe.after {s s' : σ} (h : Safe answer rely I Q p s) (hsteps : ReflTransGen rely s s') :
    Safe answer rely I Q p s' := by
  cases p with
  | ret | stop | call => exact fun s'' hsteps' => h s'' (hsteps.trans hsteps')

theorem Safe.now (h : Safe answer rely I Q p s) : I s := by
  cases p with
  | ret a => exact (h s .refl).1
  | stop => exact h s .refl
  | call op k => exact (h s .refl).1

/-! ## processes that make certain calls only -/

/-- Every call of the process satisfies `G`, and what it returns `R`, whatever is answered. -/
def Only (G : Op → Prop) (R : α → Prop) : Proc Op Resp α → Prop
  | .ret a => R a
  | .stop => True
  | .call op k => G op ∧ ∀ r, Only G R (k r)

variable {G : Op → Prop} {R : α → Prop}

theorem only_mono {G' : Op → Prop} {R' : α → Prop} (hG : ∀ op, G op → G' op) (hR : ∀ a, R a → R' a)
    (h : Only G R p) : Only G' R' p := by
  induction p with
  | ret a => exact hR a h
  | stop => exact trivial
  | call op k ih => exact ⟨hG op h.1, fun r => ih r (h.2 r)⟩

theorem only_bind {f : α → Proc Op Resp β} {R' : β → Prop} (hp : Only G R p)
    (hf : ∀ a, R a → Only G R' (f a)) : Only G R' (p >>= f) := by
  induction p with
  | ret a => exact hf a hp
  | stop => exact trivial
  | call op k ih => exact ⟨hp.1, fun r => ih r (hp.2 r)⟩

theorem only_ite {c : Prop} [Decidable c] {p q : Proc Op Resp α} (hp : c → Only G R p)
    (hq : ¬c → Only G R q) : Only G R (if c then p else q) := by
  by_cases h : c
  · rw [if_pos h]; exact hp h
  · rw [if_neg h]; exact hq h

theorem safe_of_only {P : σ → Prop} (hp : Only G R p) (hP : Stable rely P) (hI : ∀ s, P s → I s)
    (hG : ∀ s op c, G op → P s → P (answer s op c).2) (hs : P s) :
    Safe answer rely I (fun a s => R a ∧ P s) p s := by
  induction p generalizing s with
  | ret a => exact safe_pure hP hI (fun _ h => ⟨hp, h⟩) hs
  | stop => exact fun s' hsteps => hI s' (hP.star hs hsteps)
  | call op k ih =>
      intro s' hsteps
      have hs' := hP.star hs hsteps
      exact ⟨hI s' hs', fun c => ih _ (hp.2 _) (hG s' op c hp.1 hs')⟩

/-! ## processes that may fail -/

section failing

variable {ε ε' : Type}

/-- `R` of what is returned, `E` of an error. -/
def Outcome (R : α → σ → Prop) (E : ε → σ → Prop) : Except ε α → σ → Prop
  | .ok a, s => R a s
  | .error e, s => E e s

/-- From a state in `P` the process is safe, and ends in `R` or with an error in `E`. -/
def SafeTo (answer : σ → (op : Op) → χ → Resp op × σ) (rely : σ → σ → Prop) (I : σ → Prop)
    (P : σ → Prop) (x : ExceptT ε (Proc Op Resp) α) (R : α → σ → Prop) (E : ε → σ → Prop) :
    Prop :=
  ∀ s, P s → Safe answer rely I (Outcome R E) x.run s

variable {P : σ → Prop} {R R' : α → σ → Prop} {E E' : ε → σ → Prop}

theorem safeTo_pure (hP : Stable rely P) (hI : ∀ s, P s → I s) {a : α} (h : ∀ s, P s → R a s) :
    SafeTo answer rely I P (pure a) R E := by
  intro s hs
  show Safe answer rely I (Outcome R E) (.ret (.ok a)) s
  exact fun s' hsteps => ⟨hI s' (hP.star hs hsteps), h s' (hP.star hs hsteps)⟩

theorem safeTo_throw (hP : Stable rely P) (hI : ∀ s, P s → I s) {e : ε}
    (h : ∀ s, P s → E e s) :
    SafeTo answer rely I P (throw e : ExceptT ε (Proc Op Resp) α) R E := by
  intro s hs
  show Safe answer rely I (Outcome R E) (.ret (.error e)) s
  exact fun s' hsteps => ⟨hI s' (hP.star hs hsteps), h s' (hP.star hs hsteps)⟩

variable {x : ExceptT ε (Proc Op Resp) α} {f : α → ExceptT ε (Proc Op Resp) β}

theorem safeTo_bind {R' : β → σ → Prop} (hx : SafeTo answer rely I P x R E)
    (hf : ∀ a, SafeTo answer rely I (R a) (f a) R' E) : SafeTo answer rely I P (x >>= f) R' E := by
  refine fun s hs => safe_seq (hx s hs) fun r s h => ?_
  cases r with
  | ok a => exact hf a s (h s .refl).2
  | error e => exact fun s' hsteps => h s' hsteps

theorem safeTo_lift (hP : Stable rely P) (hI : ∀ s, P s → I s) {op : Op}
    {R : Resp op → σ → Prop} (hR : ∀ r, Stable rely (R r)) (hRI : ∀ r s, R r s → I s)
    (h : ∀ s c, P s → R (answer s op c).1 (answer s op c).2) :
    SafeTo answer rely I P (ExceptT.lift (perform op) : ExceptT ε (Proc Op Resp) (Resp op)) R
      E := by
  intro s hs
  show Safe answer rely I (Outcome R E) (.call op (fun r => .ret (.ok r))) s
  intro s' hsteps
  have hs' := hP.star hs hsteps
  refine ⟨hI s' hs', fun c s'' hsteps' => ?_⟩
  have hR' := (hR _).star (h s' c hs') hsteps'
  exact ⟨hRI _ s'' hR', hR'⟩

theorem safeTo_try (hx : SafeTo answer rely I P x R E) :
    SafeTo answer rely I P
      (ExceptT.lift x.run : ExceptT ε' (Proc Op Resp) (Except ε α)) (Outcome R E)
      (fun _ _ => False) := by
  intro s hs
  show Safe answer rely I _ (x.run >>= fun r => pure (Except.ok r)) s
  exact safe_seq (hx s hs) fun r s h s' hsteps => h s' hsteps

theorem safeTo_adapt {f : ε → ε'} {E' : ε' → σ → Prop} (hx : SafeTo answer rely I P x R E)
    (hE : ∀ e s, E e s → E' (f e) s) : SafeTo answer rely I P (ExceptT.adapt f x) R E' := by
  intro s hs
  show Safe answer rely I _ (x.run >>= fun r => pure (r.mapError f)) s
  refine safe_seq (hx s hs) fun r s h => ?_
  cases r with
  | ok a => exact fun s' hsteps => h s' hsteps
  | error e => exact fun s' hsteps => ⟨(h s' hsteps).1, hE e s' (h s' hsteps).2⟩

theorem safeTo_exists {ι : Type} {P : ι → σ → Prop} (h : ∀ i, SafeTo answer rely I (P i) x R E) :
    SafeTo answer rely I (fun s => ∃ i, P i s) x R E := fun s ⟨i, hs⟩ => h i s hs

theorem SafeTo.mono {P' : σ → Prop} (hx : SafeTo answer rely I P x R E) (hP : ∀ s, P' s → P s)
    (hR : ∀ a s, R a s → R' a s) (hE : ∀ e s, E e s → E' e s) :
    SafeTo answer rely I P' x R' E' := by
  intro s hs
  refine safe_mono ?_ (hx s (hP s hs))
  intro r s' h
  cases r with
  | ok a => exact hR a s' h
  | error e => exact hE e s' h

theorem SafeTo.strengthen_pre {P' : σ → Prop} (hx : SafeTo answer rely I P x R E)
    (hP : ∀ s, P' s → P s) : SafeTo answer rely I P' x R E :=
  fun s hs => hx s (hP s hs)

theorem SafeTo.weaken {I' : σ → Prop} (hx : SafeTo answer rely I P x R E) (hI : ∀ s, I s → I' s) :
    SafeTo answer rely I' P x R E :=
  fun s hs => safe_weaken hI (hx s hs)

theorem safeTo_ite {c : Prop} [Decidable c] {x y : ExceptT ε (Proc Op Resp) α}
    (hx : c → SafeTo answer rely I P x R E) (hy : ¬c → SafeTo answer rely I P y R E) :
    SafeTo answer rely I P (if c then x else y) R E := by
  by_cases h : c
  · rw [if_pos h]; exact hx h
  · rw [if_neg h]; exact hy h

theorem safeTo_pre {p : Prop} (hp : ∀ s, P s → p) (h : p → SafeTo answer rely I P x R E) :
    SafeTo answer rely I P x R E :=
  fun s hs => h (hp s hs) s hs

/-- Every call of a process that may fail satisfies `G`. -/
def Within (G : Op → Prop) (x : ExceptT ε (Proc Op Resp) α) : Prop :=
  Only G (fun _ => True) x.run

variable {G : Op → Prop}

theorem within_pure {a : α} : Within G (pure a : ExceptT ε (Proc Op Resp) α) := trivial

theorem within_throw {e : ε} : Within G (throw e : ExceptT ε (Proc Op Resp) α) := trivial

theorem within_lift {op : Op} (h : G op) :
    Within G (ExceptT.lift (perform op) : ExceptT ε (Proc Op Resp) (Resp op)) :=
  ⟨h, fun _ => trivial⟩

theorem within_bind (hx : Within G x) (hf : ∀ a, Within G (f a)) : Within G (x >>= f) := by
  refine only_bind hx (fun r _ => ?_)
  cases r with
  | ok a => exact hf a
  | error e => exact trivial

theorem within_bind_only {R : α → Prop} (hx : Only G (fun r => ∀ a, r = .ok a → R a) x.run)
    (hf : ∀ a, R a → Within G (f a)) : Within G (x >>= f) := by
  refine only_bind hx (fun r hr => ?_)
  cases r with
  | ok a => exact hf a (hr a rfl)
  | error e => exact trivial

theorem within_ite {c : Prop} [Decidable c] {x y : ExceptT ε (Proc Op Resp) α}
    (hx : Within G x) (hy : Within G y) : Within G (if c then x else y) := by
  by_cases h : c
  · rwa [if_pos h]
  · rwa [if_neg h]

theorem within_adapt {f : ε → ε'} (hx : Within G x) :
    Within G (ExceptT.adapt f x) := only_bind hx (fun _ _ => trivial)

theorem within_try (hx : Within G x) :
    Within G (ExceptT.lift x.run : ExceptT ε' (Proc Op Resp) (Except ε α)) :=
  only_bind hx (fun _ _ => trivial)

end failing

/-! ## a process alone -/

/-- What is left of the process, and the state, after some calls. -/
def calls (answer : σ → (op : Op) → χ → Resp op × σ) :
    List χ → Proc Op Resp α → σ → Proc Op Resp α × σ
  | c :: cs, .call op k, s => calls answer cs (k (answer s op c).1) (answer s op c).2
  | _, p, s => (p, s)

variable {P : σ → Prop}

/-! ## runs with stops and restarts -/

/-- A process, or none, over a state. -/
structure Config (Op : Type) (Resp : Op → Type) (σ α : Type) where
  proc : Option (Proc Op Resp α)
  state : σ

/-- The process makes a call, the surroundings move, the process stops, or one is started. -/
inductive Config.Step (answer : σ → (op : Op) → χ → Resp op × σ) (rely idle : σ → σ → Prop)
    (starts : Proc Op Resp α → Prop) : Config Op Resp σ α → Config Op Resp σ α → Prop where
  | call {op : Op} {k : Resp op → Proc Op Resp α} {s : σ} (c : χ) :
      Step answer rely idle starts ⟨some (.call op k), s⟩
        ⟨some (k (answer s op c).1), (answer s op c).2⟩
  | rely {p : Proc Op Resp α} {s s' : σ} (h : rely s s') :
      Step answer rely idle starts ⟨some p, s⟩ ⟨some p, s'⟩
  | stop {p : Proc Op Resp α} {s : σ} : Step answer rely idle starts ⟨some p, s⟩ ⟨none, s⟩
  | idle {s s' : σ} (h : idle s s') : Step answer rely idle starts ⟨none, s⟩ ⟨none, s'⟩
  | start {p : Proc Op Resp α} {s : σ} (h : starts p) :
      Step answer rely idle starts ⟨none, s⟩ ⟨some p, s⟩

variable {starts : Proc Op Resp α → Prop}

/-- The configurations of a run. -/
abbrev Config.Runs (answer : σ → (op : Op) → χ → Resp op × σ) (rely idle : σ → σ → Prop)
    (starts : Proc Op Resp α → Prop) : Config Op Resp σ α → Config Op Resp σ α → Prop :=
  ReflTransGen (Config.Step answer rely idle starts)

/-- **What safe processes keep holds at every point of every run.** -/
theorem runs_invariant (hidle : Stable idle I)
    (hstart : ∀ p, starts p → ∀ s, I s → Safe answer rely I (fun _ _ => True) p s) (hs : I s)
    {c : Config Op Resp σ α} (hrun : Config.Runs answer rely idle starts ⟨none, s⟩ c) :
    I c.state := by
  suffices h : I c.state ∧
      ∀ p, c.proc = some p → Safe answer rely I (fun _ _ => True) p c.state from h.1
  induction hrun with
  | refl => exact ⟨hs, fun p hp => nomatch hp⟩
  | tail _ hstep ih =>
      obtain ⟨hI, hsafe⟩ := ih
      cases hstep with
      | call c =>
          have hnext := (hsafe _ rfl _ .refl).2 c
          exact ⟨hnext.now, fun p hp => Option.some.inj hp ▸ hnext⟩
      | rely h =>
          have hnext := (hsafe _ rfl).after (.single h)
          exact ⟨hnext.now, fun p hp => Option.some.inj hp ▸ hnext⟩
      | stop => exact ⟨hI, fun p hp => nomatch hp⟩
      | idle h => exact ⟨hidle _ _ h hI, fun p hp => nomatch hp⟩
      | start h => exact ⟨hI, fun p hp => Option.some.inj hp ▸ hstart _ h _ hI⟩

theorem runs_safe (h : Safe answer rely I Q p s) {c : Config Op Resp σ α}
    (hrun : Config.Runs answer rely idle (fun _ => False) ⟨some p, s⟩ c) :
    ∀ q, c.proc = some q → Safe answer rely I Q q c.state := by
  induction hrun with
  | refl => exact fun q hq => Option.some.inj hq ▸ h
  | tail _ hstep ih =>
      cases hstep with
      | call c => exact fun q hq => Option.some.inj hq ▸ (ih _ rfl _ .refl).2 c
      | rely hrely => exact fun q hq => Option.some.inj hq ▸ (ih _ rfl).after (.single hrely)
      | stop => exact fun q hq => nomatch hq
      | idle _ => exact fun q hq => nomatch hq
      | start h => exact h.elim

theorem runs_calls (cs : List χ) (p : Proc Op Resp α) (s : σ) :
    Config.Runs answer rely idle starts ⟨some p, s⟩
      ⟨some (calls answer cs p s).1, (calls answer cs p s).2⟩ := by
  induction cs generalizing p s with
  | nil =>
      cases p with
      | ret a => exact .refl
      | stop => exact .refl
      | call op k => exact .refl
  | cons c cs ih =>
      cases p with
      | ret a => exact .refl
      | stop => exact .refl
      | call op k => exact .head (.call c) (ih _ _)

/-! ## runs in which only some answers are given -/

/-- A step of a run in which a call is answered with an allowed choice. -/
inductive Config.StepUnder (answer : σ → (op : Op) → χ → Resp op × σ)
    (allowed : σ → Op → χ → Prop) (rely idle : σ → σ → Prop) (starts : Proc Op Resp α → Prop) :
    Config Op Resp σ α → Config Op Resp σ α → Prop where
  | call {op : Op} {k : Resp op → Proc Op Resp α} {s : σ} (c : χ) (h : allowed s op c) :
      StepUnder answer allowed rely idle starts ⟨some (.call op k), s⟩
        ⟨some (k (answer s op c).1), (answer s op c).2⟩
  | rely {p : Proc Op Resp α} {s s' : σ} (h : rely s s') :
      StepUnder answer allowed rely idle starts ⟨some p, s⟩ ⟨some p, s'⟩
  | stop {p : Proc Op Resp α} {s : σ} :
      StepUnder answer allowed rely idle starts ⟨some p, s⟩ ⟨none, s⟩
  | idle {s s' : σ} (h : idle s s') :
      StepUnder answer allowed rely idle starts ⟨none, s⟩ ⟨none, s'⟩
  | start {p : Proc Op Resp α} {s : σ} (h : starts p) :
      StepUnder answer allowed rely idle starts ⟨none, s⟩ ⟨some p, s⟩

abbrev Config.RunsUnder (answer : σ → (op : Op) → χ → Resp op × σ) (allowed : σ → Op → χ → Prop)
    (rely idle : σ → σ → Prop) (starts : Proc Op Resp α → Prop) :
    Config Op Resp σ α → Config Op Resp σ α → Prop :=
  ReflTransGen (Config.StepUnder answer allowed rely idle starts)

theorem runsUnder_of_runs {allowed : σ → Op → χ → Prop} (hall : ∀ s op c, allowed s op c)
    {c c' : Config Op Resp σ α} (h : Config.Runs answer rely idle starts c c') :
    Config.RunsUnder answer allowed rely idle starts c c' := by
  refine ReflTransGen.mono (fun a b hstep => ?_) _ _ h
  cases hstep with
  | call c => exact .call c (hall _ _ c)
  | rely h => exact .rely h
  | stop => exact .stop
  | idle h => exact .idle h
  | start h => exact .start h

open Classical in
/-- A choice that is not allowed stands for one that is. -/
noncomputable def confine (answer : σ → (op : Op) → χ → Resp op × σ)
    (allowed : σ → Op → χ → Prop) (instead : σ → Op → χ) (s : σ) (op : Op) (c : χ) :
    Resp op × σ :=
  if allowed s op c then answer s op c else answer s op (instead s op)

section confine

variable {allowed : σ → Op → χ → Prop} {instead : σ → Op → χ}

theorem confine_of_allowed {s : σ} {op : Op} {c : χ} (h : allowed s op c) :
    confine answer allowed instead s op c = answer s op c := if_pos h

theorem confine_cases (hinstead : ∀ s op, allowed s op (instead s op)) (s : σ) (op : Op) (c : χ) :
    ∃ c', allowed s op c' ∧ confine answer allowed instead s op c = answer s op c' := by
  by_cases h : allowed s op c
  · exact ⟨c, h, confine_of_allowed h⟩
  · exact ⟨instead s op, hinstead s op, if_neg h⟩

theorem runsUnder_confine {c c' : Config Op Resp σ α}
    (h : Config.RunsUnder answer allowed rely idle starts c c') :
    Config.Runs (confine answer allowed instead) rely idle starts c c' := by
  refine ReflTransGen.mono (fun a b hstep => ?_) _ _ h
  cases hstep with
  | @call op k s c h =>
      have hstep : Config.Step (confine answer allowed instead) rely idle starts
          ⟨some (.call op k), s⟩ ⟨some (k (confine answer allowed instead s op c).1),
            (confine answer allowed instead s op c).2⟩ := .call c
      rwa [confine_of_allowed h] at hstep
  | rely h => exact .rely h
  | stop => exact .stop
  | idle h => exact .idle h
  | start h => exact .start h

end confine

/-! ## pools of safe processes -/

namespace Pool

/-- The processes of a pool that make their own calls only, and rely on no more than what the
    calls of the others do. -/
structure Harmony (answer : σ → (op : Op) → χ → Resp op × σ) (rely : Nat → σ → σ → Prop)
    (G : Nat → Op → Prop) (J : σ → Prop) : Prop where
  keep : ∀ i s op c, G i op → J s → J (answer s op c).2
  others : ∀ i j s op c, i ≠ j → G i op → J s → rely j s (answer s op c).2

/-- Each process is safe, and makes its own calls only. -/
def AllSafe (answer : σ → (op : Op) → χ → Resp op × σ) (rely : Nat → σ → σ → Prop)
    (G : Nat → Op → Prop) (Q : Nat → α → σ → Prop) (pool : Pool Op Resp σ α) : Prop :=
  ∀ i p, pool.procs[i]? = some p →
    Safe answer (rely i) (fun _ => True) (Q i) p pool.shared ∧ Only (G i) (fun _ => True) p

variable {rely : Nat → σ → σ → Prop} {G : Nat → Op → Prop} {J : σ → Prop}
  {Q : Nat → α → σ → Prop} {pool : Pool Op Resp σ α}

theorem AllSafe.step (h : Harmony answer rely G J) (hJ : J pool.shared)
    (hsafe : AllSafe answer rely G Q pool) (c : Nat × χ) :
    J (step answer pool c).shared ∧ AllSafe answer rely G Q (step answer pool c) := by
  rcases step_cases answer pool c with hsame | ⟨op, k, hcall, hstep⟩
  · rw [hsame]
    exact ⟨hJ, hsafe⟩
  · obtain ⟨hown, honly⟩ := hsafe c.1 _ hcall
    rw [hstep]
    refine ⟨h.keep c.1 _ op c.2 honly.1 hJ, fun i p hp => ?_⟩
    by_cases hi : c.1 = i
    · subst hi
      have hlt : c.1 < pool.procs.length := (List.getElem?_eq_some_iff.mp hcall).1
      simp only [List.getElem?_set_self hlt, Option.some.injEq] at hp
      subst hp
      exact ⟨(hown _ .refl).2 c.2, honly.2 _⟩
    · simp only [List.getElem?_set_ne hi] at hp
      obtain ⟨hother, honly'⟩ := hsafe i p hp
      exact ⟨hother.after (.single (h.others c.1 i _ op c.2 hi honly.1 hJ)), honly'⟩

/-- **In a pool in harmony every process keeps what it keeps alone.** -/
theorem run_safe (h : Harmony answer rely G J) (hJ : J pool.shared)
    (hsafe : AllSafe answer rely G Q pool) (schedule : List (Nat × χ)) :
    J (run answer pool schedule).shared ∧ AllSafe answer rely G Q (run answer pool schedule) := by
  induction schedule using List.reverseRecOn with
  | nil => exact ⟨hJ, hsafe⟩
  | append_singleton schedule c ih =>
      have hrun : run answer pool (schedule ++ [c]) =
          Pool.step answer (run answer pool schedule) c := by
        rw [run, List.foldl_append]
        rfl
      rw [hrun]
      exact AllSafe.step h ih.1 ih.2 c

theorem AllSafe.step_others (h : Harmony answer rely G J) (hJ : J pool.shared)
    (hsafe : AllSafe answer rely G Q pool) {c : Nat × χ} {j : Nat} (hne : c.1 ≠ j)
    (hrefl : ∀ s, rely j s s) : rely j pool.shared (Pool.step answer pool c).shared := by
  rcases step_cases answer pool c with hsame | ⟨op, k, hcall, hstep⟩
  · rw [hsame]
    exact hrefl _
  · rw [hstep]
    exact h.others c.1 j _ op c.2 hne (hsafe c.1 _ hcall).2.1 hJ

end Pool

end Proc
