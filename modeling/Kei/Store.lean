/-!
# Kei.Store

The metadata rows of the state database, and the calls the sync cycle makes
on them.

A row maps a key to a value.  A call can fail, leaving the rows as they were,
and the process can stop before a call; a checkpoint transition is one
transaction, so it is applied whole or not at all.  Which calls fail and where
the process stops is up to the environment, one answer for each call.
-/

namespace Kei.Store

/-! ## rows -/

/-- The rows of the `metadata` table. -/
abbrev Rows := String → Option String

/-- `INSERT ... ON CONFLICT DO UPDATE`. -/
def Rows.set (r : Rows) (key value : String) : Rows :=
  fun k => if k = key then some value else r k

/-- `DELETE ... WHERE key = ?`. -/
def Rows.delete (r : Rows) (key : String) : Rows := fun k => if k = key then none else r k

/-- The letters `LIKE` compares without their case. -/
def likeChar (p c : Char) : Bool := p == '_' || p.toLower == c.toLower

/-- The pattern `prefix%` of `LIKE`, for a prefix without `%`. -/
def likePrefix : List Char → List Char → Bool
  | [], _ => true
  | _ :: _, [] => false
  | p :: ps, c :: cs => likeChar p c && likePrefix ps cs

/-- `DELETE ... WHERE key LIKE 'prefix%'`. -/
def Rows.deleteByPrefix (r : Rows) (pre : String) : Rows :=
  fun k => if likePrefix pre.toList k.toList then none else r k

/-- Updates and deletes that are applied in one transaction. -/
structure CheckpointTransition where
  metadataUpdates : List (String × String)
  metadataDeletes : List String

/-- The rows after a transition. -/
def Rows.transition (r : Rows) (t : CheckpointTransition) : Rows :=
  t.metadataDeletes.foldl Rows.delete
    (t.metadataUpdates.foldl (fun r u => r.set u.1 u.2) r)

/-! ## what each operation leaves alone -/

@[simp] theorem set_self (r : Rows) (key value : String) : r.set key value key = some value := by
  simp [Rows.set]

theorem set_of_ne (r : Rows) {key value k : String} (h : k ≠ key) : r.set key value k = r k :=
  if_neg h

theorem delete_of_ne (r : Rows) {key k : String} (h : k ≠ key) : r.delete key k = r k := if_neg h

@[simp] theorem delete_self (r : Rows) (key : String) : r.delete key key = none := by
  simp [Rows.delete]

theorem deleteByPrefix_of_not (r : Rows) {pre k : String}
    (h : likePrefix pre.toList k.toList = false) : r.deleteByPrefix pre k = r k := by
  simp [Rows.deleteByPrefix, h]

theorem deleteByPrefix_of (r : Rows) {pre k : String}
    (h : likePrefix pre.toList k.toList = true) : r.deleteByPrefix pre k = none := by
  simp [Rows.deleteByPrefix, h]

theorem likePrefix_append (p l : List Char) : likePrefix p (p ++ l) = true := by
  induction p with
  | nil => rfl
  | cons c p ih => simp [likePrefix, likeChar, ih]

variable {k : String}

theorem updates_of_not_mem {us : List (String × String)} (h : ∀ u ∈ us, u.1 ≠ k) (r : Rows) :
    us.foldl (fun r u => Rows.set r u.1 u.2) r k = r k := by
  induction us generalizing r with
  | nil => rfl
  | cons u us ih =>
      rw [List.foldl_cons, ih (fun x hx => h x (List.mem_cons_of_mem u hx)),
        set_of_ne r (h u List.mem_cons_self).symm]

theorem deletes_of_not_mem {ds : List String} (h : k ∉ ds) (r : Rows) :
    ds.foldl Rows.delete r k = r k := by
  induction ds generalizing r with
  | nil => rfl
  | cons d ds ih =>
      simp only [List.mem_cons, not_or] at h
      rw [List.foldl_cons, ih h.2, delete_of_ne r h.1]

theorem deletes_of_mem {ds : List String} (h : k ∈ ds) (r : Rows) :
    ds.foldl Rows.delete r k = none := by
  induction ds generalizing r with
  | nil => contradiction
  | cons d ds ih =>
      rw [List.foldl_cons]
      by_cases hk : k ∈ ds
      · exact ih hk _
      · have hd : k = d := (List.mem_cons.mp h).resolve_right hk
        subst hd
        rw [deletes_of_not_mem hk, delete_self]

/-- **A transition only touches the keys it names.** -/
theorem transition_of_not_mem {r : Rows} {t : CheckpointTransition}
    (hu : ∀ u ∈ t.metadataUpdates, u.1 ≠ k) (hd : k ∉ t.metadataDeletes) :
    r.transition t k = r k := by
  rw [Rows.transition, deletes_of_not_mem hd, updates_of_not_mem hu]

theorem updates_of_mem {us : List (String × String)} {k v : String} (h : (k, v) ∈ us)
    (huniq : ∀ u ∈ us, u.1 = k → u.2 = v) (r : Rows) :
    us.foldl (fun r u => Rows.set r u.1 u.2) r k = some v := by
  induction us generalizing r with
  | nil => contradiction
  | cons u us ih =>
      rw [List.foldl_cons]
      by_cases hk : ∃ w ∈ us, w.1 = k
      · obtain ⟨w, hw, hwk⟩ := hk
        have hwv := huniq w (List.mem_cons_of_mem u hw) hwk
        have hmem : (k, v) ∈ us := by rw [← hwk, ← hwv]; exact hw
        exact ih hmem (fun x hx => huniq x (List.mem_cons_of_mem u hx)) _
      · have hu : u = (k, v) := by
          rcases List.mem_cons.mp h with h | h
          · exact h.symm
          · exact absurd ⟨_, h, rfl⟩ hk
        subst hu
        rw [updates_of_not_mem (fun x hx hxk => hk ⟨x, hx, hxk⟩), set_self]

end Kei.Store
