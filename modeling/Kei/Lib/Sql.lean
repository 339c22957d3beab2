/-!
# Kei.Lib.Sql

Operations of several statements, one of which may fail.

An operation is a tree of statements; what follows a statement reads the
tables that the statement saw.  `inConnection` runs the statements one by one,
`inTransaction` takes everything back when one of them fails.  This module
depends only on the Lean core library.
-/

/-- Why an operation has no result. -/
inductive SqlError (ε : Type) where
  /-- A statement failed. -/
  | query (operation : String)
  | refused (e : ε)
  deriving DecidableEq

/-- The statements of an operation. -/
inductive Sql (S ε α : Type) where
  | done (a : α)
  | refuse (e : ε)
  | stmt (operation : String) (write : S → S) (k : S → Sql S ε α)

namespace Sql

variable {S ε α β : Type}

def bind : Sql S ε α → (α → Sql S ε β) → Sql S ε β
  | .done a, f => f a
  | .refuse e, _ => .refuse e
  | .stmt operation write k, f => .stmt operation write (fun s => (k s).bind f)

instance : Monad (Sql S ε) where
  pure := .done
  bind := bind

@[simp] theorem refuse_bind {e : ε} {f : α → Sql S ε β} :
    (Sql.refuse e : Sql S ε α) >>= f = .refuse e := rfl

@[simp] theorem pure_bind {a : α} {f : α → Sql S ε β} :
    (pure a : Sql S ε α) >>= f = f a := rfl

variable {p : Sql S ε α}

@[simp] theorem bind_assoc {γ : Type} {f : α → Sql S ε β} {g : β → Sql S ε γ} :
    p >>= f >>= g = p >>= fun a => f a >>= g := by
  show (p.bind f).bind g = p.bind (fun a => (f a).bind g)
  induction p with
  | done a => rfl
  | refuse e => rfl
  | stmt operation write k ih => exact congrArg (Sql.stmt operation write) (funext ih)

/-- A statement that reads. -/
def query (operation : String) (f : S → α) : Sql S ε α := .stmt operation id (fun s => .done (f s))

/-- A statement that writes; `f` is what it reports, such as the number of rows it reaches. -/
def execute (operation : String) (write : S → S) (f : S → α) : Sql S ε α :=
  .stmt operation write (fun s => .done (f s))

/-- Run the statements.  With the fuse `some n` the one after `n` others fails; the fuse that is
left is returned, `none` once it has burnt. -/
def run : Sql S ε α → Option Nat → S → Except (SqlError ε) α × Option Nat × S
  | .done a, fuse, s => (.ok a, fuse, s)
  | .refuse e, fuse, s => (.error (.refused e), fuse, s)
  | .stmt operation _ _, some 0, s => (.error (.query operation), none, s)
  | .stmt _ write k, some (n + 1), s => (k s).run (some n) (write s)
  | .stmt _ write k, none, s => (k s).run none (write s)

section run

variable {operation : String} {write : S → S} {k : S → Sql S ε α} {f : S → α}
  {g : α → Sql S ε β} {n : Nat} {s : S}

@[simp] theorem run_pure {a : α} {fuse : Option Nat} :
    (pure a : Sql S ε α).run fuse s = (.ok a, fuse, s) := by cases fuse <;> rfl

@[simp] theorem run_refuse {e : ε} {fuse : Option Nat} :
    (Sql.refuse e : Sql S ε α).run fuse s = (.error (.refused e), fuse, s) := by
  cases fuse <;> rfl

@[simp] theorem run_query_burnt :
    (query operation f >>= g).run (some 0) s = (.error (.query operation), none, s) := rfl

@[simp] theorem run_query_succ :
    (query operation f >>= g).run (some (n + 1)) s = (g (f s)).run (some n) s := rfl

@[simp] theorem run_query_none :
    (query operation f >>= g).run none s = (g (f s)).run none s := rfl

@[simp] theorem run_execute_burnt :
    (execute operation write f >>= g).run (some 0) s = (.error (.query operation), none, s) := rfl

@[simp] theorem run_execute_succ :
    (execute operation write f >>= g).run (some (n + 1)) s = (g (f s)).run (some n) (write s) := rfl

@[simp] theorem run_execute_none :
    (execute operation write f >>= g).run none s = (g (f s)).run none (write s) := rfl

@[simp] theorem run_last_burnt :
    (execute operation write f : Sql S ε α).run (some 0) s =
      (.error (.query operation), none, s) := rfl

@[simp] theorem run_last_succ :
    (execute operation write f : Sql S ε α).run (some (n + 1)) s =
      (.ok (f s), some n, write s) := rfl

@[simp] theorem run_last_none :
    (execute operation write f : Sql S ε α).run none s = (.ok (f s), none, write s) := rfl

/-- A last statement that the fuse does not stop takes place. -/
theorem run_last_of_ne {fuse : Option Nat} (h : fuse ≠ some 0) :
    (execute operation write f : Sql S ε α).run fuse s =
      (.ok (f s), fuse.map (· - 1), write s) := by
  rcases fuse with _ | _ | n
  · rfl
  · exact absurd rfl h
  · rfl

end run

theorem run_bind_pure (p : Sql S ε α) (f : α → β) (fuse : Option Nat) (s : S) :
    ((p >>= fun a => pure (f a)).run fuse s).2 = (p.run fuse s).2 := by
  induction p generalizing fuse s with
  | done a => cases fuse <;> rfl
  | refuse e => cases fuse <;> rfl
  | stmt operation write k ih =>
      rcases fuse with - | - | n
      · exact ih s none (write s)
      · rfl
      · exact ih s (some n) (write s)

theorem run_spared {n m : Nat} {s s' : S} {r : Except (SqlError ε) α}
    (h : p.run (some n) s = (r, some m, s')) : p.run none s = (r, none, s') := by
  induction p generalizing n s with
  | done a =>
      cases h
      rfl
  | refuse e =>
      cases h
      rfl
  | stmt operation write k ih =>
      cases n with
      | zero => cases h
      | succ n => exact ih s h

theorem run_burnt {n : Nat} {s s' : S} {r : Except (SqlError ε) α}
    (h : p.run (some n) s = (r, none, s')) : ∃ e, r = .error e := by
  induction p generalizing n s with
  | done a => cases h
  | refuse e => cases h
  | stmt operation write k ih =>
      cases n with
      | zero =>
          cases h
          exact ⟨_, rfl⟩
      | succ n => exact ih s h

/-! ## connections and transactions -/

/-- The statements one by one, with what they leave. -/
def inConnection (p : Sql S ε α) (fuse : Option Nat) (s : S) : Except (SqlError ε) α × S :=
  ((p.run fuse s).1, (p.run fuse s).2.2)

/-- All statements or none; the transaction's begin and commit may fail, too. -/
def inTransaction (operation : String) (p : Sql S ε α) (fuse : Option Nat) (s : S) :
    Except (SqlError ε) α × S :=
  match fuse with
  | some 0 => (.error (.query (operation ++ "::begin")), s)
  | _ =>
      match p.run (fuse.map (· - 1)) s with
      | (.ok _, some 0, _) => (.error (.query (operation ++ "::commit")), s)
      | (.ok a, _, s') => (.ok a, s')
      | (.error e, _, _) => (.error e, s)

theorem run_none_fuse (p : Sql S ε α) (s : S) : (p.run none s).2.1 = none := by
  induction p generalizing s with
  | done a => rfl
  | refuse e => rfl
  | stmt operation write k ih => exact ih s (write s)

theorem inTransaction_none (operation : String) (p : Sql S ε α) (s : S) :
    (inTransaction operation p none s).2 =
      if (p.run none s).1.isOk then (p.run none s).2.2 else s := by
  have hfuse := run_none_fuse p s
  unfold inTransaction
  cases hrun : p.run none s with
  | mk result rest =>
      obtain ⟨fuse, s'⟩ := rest
      rw [hrun] at hfuse
      cases hfuse
      cases result <;> simp [hrun, Except.isOk, Except.toBool]

/-- With the statement after `n` others failing, the tables are as before, or as after a run in
which none fails. -/
def Atomic (op : Option Nat → S → Except (SqlError ε) α × S) (n : Nat) (s : S) : Prop :=
  (op (some n) s).2 = s ∨ (op (some n) s).2 = (op none s).2

/-- **A transaction is atomic.** -/
theorem inTransaction_atomic (operation : String) (p : Sql S ε α) (n : Nat) (s : S) :
    Atomic (inTransaction operation p) n s := by
  unfold Atomic inTransaction
  cases n with
  | zero => exact .inl rfl
  | succ n =>
      simp only [Option.map_some, Option.map_none, Nat.add_sub_cancel]
      split
      · exact .inl rfl
      · next a fuse s' hfuse hrun =>
          cases fuse with
          | none =>
              obtain ⟨e, he⟩ := run_burnt hrun
              cases he
          | some m =>
              rw [run_spared hrun]
              exact .inr rfl
      · exact .inl rfl

theorem execute_atomic (operation : String) (write : S → S) (f : S → α) (n : Nat) (s : S) :
    Atomic (inConnection (execute operation write f : Sql S ε α)) n s := by
  cases n with
  | zero => exact .inl rfl
  | succ n => exact .inr rfl

end Sql
