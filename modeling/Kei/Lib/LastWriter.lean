/-!
# Kei.Lib.LastWriter

Last writer wins.

What a run leaves in one cell, when an operation either writes the cell or
leaves it.  The history alone says what the cell has in the end: the value of
the last operation that writes, or else what was there before.
-/

/-- What the last operation that writes the cell writes. -/
def lastWrite {Op V : Type} (writes : Op → Option V) : List Op → Option V
  | [] => none
  | op :: ops => (lastWrite writes ops).or (writes op)

variable {Op V S : Type} {writes : Op → Option V} {ops : List Op}

theorem lastWrite_eq_none : lastWrite writes ops = none ↔ ∀ op ∈ ops, writes op = none := by
  induction ops with
  | nil => simp [lastWrite]
  | cons op ops ih =>
      rw [lastWrite, Option.or_eq_none_iff, ih, List.forall_mem_cons]
      exact and_comm

theorem exists_of_lastWrite {v : V} (h : lastWrite writes ops = some v) :
    ∃ op ∈ ops, writes op = some v := by
  induction ops with
  | nil => simp [lastWrite] at h
  | cons op ops ih =>
      rw [lastWrite, Option.or_eq_some_iff] at h
      cases h with
      | inl hlater =>
          obtain ⟨later, hmem, hwrite⟩ := ih hlater
          exact ⟨later, List.mem_cons_of_mem _ hmem, hwrite⟩
      | inr hhere => exact ⟨op, List.mem_cons_self, hhere.2⟩

theorem lastWrite_of_constant {v : V} (hconst : ∀ op, writes op = none ∨ writes op = some v)
    (ops : List Op) : lastWrite writes ops = none ∨ lastWrite writes ops = some v := by
  induction ops with
  | nil => exact .inl rfl
  | cons op ops ih =>
      rw [lastWrite]
      cases ih with
      | inl h => rw [h]; exact hconst op
      | inr h => rw [h]; exact .inr rfl

theorem lastWrite_congr {Op' : Type} {writes' : Op' → Option V} {ops' : List Op'}
    (h : ops.map writes = ops'.map writes') : lastWrite writes ops = lastWrite writes' ops' := by
  induction ops generalizing ops' with
  | nil =>
      obtain rfl : ops' = [] := by simpa using h.symm
      rfl
  | cons op ops ih =>
      cases ops' with
      | nil => simp at h
      | cons op' ops' =>
          obtain ⟨hhead, htail⟩ := List.cons.inj h
          rw [lastWrite, lastWrite, ih htail, hhead]

/-- **The last writer wins.**  `Ok` is what the operations still to come need of the state. -/
theorem foldl_lastWrite {step : S → Op → S} {view : S → V} {Ok : S → List Op → Prop}
    (hstep : ∀ s op ops, Ok s (op :: ops) →
      Ok (step s op) ops ∧ view (step s op) = (writes op).getD (view s))
    {s : S} {ops : List Op} (h : Ok s ops) :
    view (ops.foldl step s) = (lastWrite writes ops).getD (view s) := by
  induction ops generalizing s with
  | nil => rfl
  | cons op ops ih =>
      obtain ⟨hok, hview⟩ := hstep s op ops h
      rw [List.foldl_cons, ih hok, hview, lastWrite]
      cases lastWrite writes ops <;> rfl
