import Mathlib.Data.List.Nodup
import Mathlib.Algebra.Ring.Nat

/-!
# Kei.Lib.Table

Tables of rows with a primary key.

A table carries the proof that no two of its rows have the same key, so an
update must keep the keys and an insertion needs a key that is not there.
What an operation does to the rows is said by its membership lemma, and
`forall_*` turn a fact about one row into a fact about the table.
-/

/-- Rows with distinct keys. -/
structure Table (ρ κ : Type) (key : ρ → κ) where
  rows : List ρ
  primaryKey : (rows.map key).Nodup

namespace Table

variable {ρ κ : Type} {key : ρ → κ}

def empty : Table ρ κ key := ⟨[], List.nodup_nil⟩

/-- `UPDATE ... SET f WHERE p`. -/
def update (t : Table ρ κ key) (p : ρ → Bool) (f : ρ → ρ) (hf : ∀ r, key (f r) = key r) :
    Table ρ κ key where
  rows := t.rows.map (fun r => if p r then f r else r)
  primaryKey := by
    have hkeys : (t.rows.map (fun r => if p r then f r else r)).map key = t.rows.map key := by
      rw [List.map_map]
      refine List.map_congr_left (fun r _ => ?_)
      show key (if p r then f r else r) = key r
      split
      · exact hf r
      · rfl
    rw [hkeys]
    exact t.primaryKey

/-- The number of rows that an update changes. -/
def count (t : Table ρ κ key) (p : ρ → Bool) : Nat := t.rows.countP p

/-- `DELETE ... WHERE p`. -/
def delete (t : Table ρ κ key) (p : ρ → Bool) : Table ρ κ key where
  rows := t.rows.filter (fun r => !p r)
  primaryKey := t.primaryKey.sublist (List.Sublist.map key List.filter_sublist)

/-- `INSERT` of a row whose key is not there. -/
def insert (t : Table ρ κ key) (new : ρ) (h : key new ∉ t.rows.map key) : Table ρ κ key where
  rows := t.rows ++ [new]
  primaryKey := by
    rw [List.map_append, List.map_singleton]
    refine List.nodup_append.mpr ⟨t.primaryKey, List.nodup_singleton _, fun a ha b hb => ?_⟩
    rw [List.mem_singleton.mp hb]
    exact fun heq => h (heq ▸ ha)

/-- `INSERT ... ON CONFLICT DO UPDATE SET f`. -/
def upsert [DecidableEq κ] (t : Table ρ κ key) (new : ρ) (f : ρ → ρ)
    (hf : ∀ r, key (f r) = key r) : Table ρ κ key :=
  if h : key new ∈ t.rows.map key then t.update (fun r => key r = key new) f hf
  else t.insert new h

/-- The row of a key. -/
def get? [DecidableEq κ] (t : Table ρ κ key) (k : κ) : Option ρ := t.rows.find? (fun r => key r = k)

/-! ## what the operations do -/

variable {p : ρ → Bool} {f : ρ → ρ}

theorem mem_update {t : Table ρ κ key} {hf : ∀ r, key (f r) = key r} {r' : ρ} :
    r' ∈ (t.update p f hf).rows ↔ ∃ r ∈ t.rows, (if p r then f r else r) = r' :=
  List.mem_map

theorem mem_delete {t : Table ρ κ key} {r : ρ} :
    r ∈ (t.delete p).rows ↔ r ∈ t.rows ∧ p r = false := by
  show r ∈ t.rows.filter (fun r => !p r) ↔ _
  rw [List.mem_filter, Bool.not_eq_true']

theorem eq_of_rows {t t' : Table ρ κ key} (h : t.rows = t'.rows) : t = t' := by
  cases t
  cases t'
  cases h
  rfl

theorem update_of_none {t : Table ρ κ key} {hf : ∀ r, key (f r) = key r}
    (h : ∀ r ∈ t.rows, p r = false) : t.update p f hf = t := by
  refine eq_of_rows ?_
  have hrows : t.rows.map (fun r => if p r then f r else r) = t.rows.map id :=
    List.map_congr_left (fun r hr => by simp [h r hr])
  show t.rows.map (fun r => if p r then f r else r) = t.rows
  rw [hrows, List.map_id]

theorem update_eq_self_iff {t : Table ρ κ key} {p : ρ → Bool} {f : ρ → ρ}
    {hf : ∀ r, key (f r) = key r} :
    t.update p f hf = t ↔ ∀ r ∈ t.rows, p r = true → f r = r := by
  have hrows : t.update p f hf = t ↔ t.rows.map (fun r => if p r then f r else r) = t.rows :=
    ⟨fun h => congrArg rows h, fun h => eq_of_rows h⟩
  rw [hrows, List.map_eq_iff]
  constructor
  · intro h r hr hp
    obtain ⟨i, hi⟩ := List.getElem?_of_mem hr
    have hat := h i
    rw [hi] at hat
    simpa [hp] using hat.symm
  · intro h i
    cases hi : t.rows[i]? with
    | none => rfl
    | some r =>
        have hr := h r (List.mem_of_getElem? hi)
        cases hp : p r with
        | true => simp [hp, hr hp]
        | false => simp [hp]

/-- An update that changes every row it reaches changes nothing if it reaches none. -/
theorem update_eq_self_iff_of_ne {t : Table ρ κ key} {p : ρ → Bool} {f : ρ → ρ}
    {hf : ∀ r, key (f r) = key r} (hne : ∀ r, p r = true → f r ≠ r) :
    t.update p f hf = t ↔ ¬∃ r ∈ t.rows, p r = true := by
  rw [update_eq_self_iff]
  exact ⟨fun h ⟨r, hr, hp⟩ => hne r hp (h r hr hp), fun h r hr hp => absurd ⟨r, hr, hp⟩ h⟩

/-- Updates of different columns, neither of which the other one reads. -/
theorem update_comm {t : Table ρ κ key} {p q : ρ → Bool} {f g : ρ → ρ}
    {hf : ∀ r, key (f r) = key r} {hg : ∀ r, key (g r) = key r} (hp : ∀ r, p (g r) = p r)
    (hq : ∀ r, q (f r) = q r) (hfg : ∀ r, f (g r) = g (f r)) :
    (t.update p f hf).update q g hg = (t.update q g hg).update p f hf := by
  refine eq_of_rows ?_
  show (t.rows.map _).map _ = (t.rows.map _).map _
  rw [List.map_map, List.map_map]
  refine List.map_congr_left (fun r _ => ?_)
  show (if q (if p r then f r else r) then g (if p r then f r else r) else if p r then f r else r) =
    if p (if q r then g r else r) then f (if q r then g r else r) else if q r then g r else r
  cases hpr : p r <;> cases hqr : q r <;> simp [hp, hq, hfg, hpr, hqr]

theorem map_update {β : Type} {t : Table ρ κ key} {hf : ∀ r, key (f r) = key r} {view : ρ → β}
    (h : ∀ r, view (f r) = view r) : (t.update p f hf).rows.map view = t.rows.map view := by
  show (t.rows.map _).map view = _
  rw [List.map_map]
  refine List.map_congr_left (fun r _ => ?_)
  show view (if p r then f r else r) = view r
  split
  · exact h r
  · rfl

theorem eq_of_key {t : Table ρ κ key} {r r' : ρ} (h : r ∈ t.rows) (h' : r' ∈ t.rows)
    (hkey : key r = key r') : r = r' :=
  List.inj_on_of_nodup_map t.primaryKey h h' hkey

theorem mem_upsert [DecidableEq κ] {t : Table ρ κ key} {new : ρ} {hf : ∀ r, key (f r) = key r}
    {r' : ρ} (h : r' ∈ (t.upsert new f hf).rows) :
    (r' = new ∧ key new ∉ t.rows.map key) ∨
      (∃ r ∈ t.rows, key r = key new ∧ r' = f r) ∨ (r' ∈ t.rows ∧ key r' ≠ key new) := by
  unfold upsert at h
  split at h
  · next hmem =>
      obtain ⟨r, hr, heq⟩ := mem_update.mp h
      split at heq
      · next hkey => exact .inr (.inl ⟨r, hr, of_decide_eq_true hkey, heq.symm⟩)
      · next hkey =>
          subst heq
          exact .inr (.inr ⟨hr, fun hsame => hkey (decide_eq_true hsame)⟩)
  · next hmem =>
      rcases List.mem_append.mp h with hold | hnew
      · refine .inr (.inr ⟨hold, fun hsame => hmem ?_⟩)
        rw [← hsame]
        exact List.mem_map_of_mem hold
      · exact .inl ⟨List.mem_singleton.mp hnew, hmem⟩

theorem mem_upsert_of_mem [DecidableEq κ] {t : Table ρ κ key} {new : ρ} {f : ρ → ρ}
    {hf : ∀ r, key (f r) = key r} {r : ρ} (h : r ∈ t.rows) :
    (if key r = key new then f r else r) ∈ (t.upsert new f hf).rows := by
  unfold upsert
  split
  · refine mem_update.mpr ⟨r, h, ?_⟩
    by_cases hkey : key r = key new <;> simp [hkey]
  · next hmem =>
      have hne : key r ≠ key new := fun hkey => hmem (hkey ▸ List.mem_map_of_mem h)
      rw [if_neg hne]
      exact List.mem_append_left _ h

theorem mem_upsert_of_ne [DecidableEq κ] {t : Table ρ κ key} {new : ρ} {hf : ∀ r, key (f r) = key r}
    {r : ρ} (h : r ∈ t.rows) (hne : key r ≠ key new) : r ∈ (t.upsert new f hf).rows := by
  have hmem : (if key r = key new then f r else r) ∈ (t.upsert new f hf).rows :=
    mem_upsert_of_mem h
  rwa [if_neg hne] at hmem

theorem exists_mem_upsert [DecidableEq κ] (t : Table ρ κ key) (new : ρ) (f : ρ → ρ)
    (hf : ∀ r, key (f r) = key r) : ∃ r ∈ (t.upsert new f hf).rows, key r = key new := by
  by_cases hin : key new ∈ t.rows.map key
  · obtain ⟨r, hr, hkey⟩ := List.mem_map.mp hin
    refine ⟨_, mem_upsert_of_mem hr, ?_⟩
    rw [if_pos hkey, hf, hkey]
  · refine ⟨new, ?_, rfl⟩
    rw [upsert, dif_neg hin]
    exact List.mem_append_right _ (List.mem_singleton.mpr rfl)

theorem mem_update_of_mem {t : Table ρ κ key} {hf : ∀ r, key (f r) = key r} {r : ρ}
    (h : r ∈ t.rows) :
    (if p r then f r else r) ∈ (t.update p f hf).rows := mem_update.mpr ⟨r, h, rfl⟩

/-! ## what the operations do at a key -/

section Lookup

variable [DecidableEq κ] {t : Table ρ κ key} {k : κ}

theorem get?_key {r : ρ} (h : t.get? k = some r) : key r = k :=
  of_decide_eq_true (List.find?_some (p := fun r => decide (key r = k)) h)

theorem mem_of_get? {r : ρ} (h : t.get? k = some r) : r ∈ t.rows :=
  List.mem_of_find?_eq_some h

theorem get?_eq_some {r : ρ} : t.get? k = some r ↔ r ∈ t.rows ∧ key r = k := by
  constructor
  · exact fun h => ⟨mem_of_get? h, get?_key h⟩
  · rintro ⟨hr, hkey⟩
    cases hget : t.get? k with
    | none =>
        have hno : ¬ decide (key r = k) = true := List.find?_eq_none.mp hget r hr
        exact absurd (decide_eq_true hkey) hno
    | some r' =>
        have hsame : key r' = key r := (get?_key hget).trans hkey.symm
        rw [eq_of_key (mem_of_get? hget) hr hsame]

theorem get?_eq_none : t.get? k = none ↔ k ∉ t.rows.map key := by
  show t.rows.find? _ = none ↔ _
  rw [List.find?_eq_none, List.mem_map]
  simp only [decide_eq_true_eq, not_exists, not_and]

theorem get?_congr {t' : Table ρ κ key} (h : ∀ r, key r = k → (r ∈ t'.rows ↔ r ∈ t.rows)) :
    t'.get? k = t.get? k := by
  refine Option.ext (fun r => ?_)
  show t'.get? k = some r ↔ t.get? k = some r
  rw [get?_eq_some, get?_eq_some]
  constructor
  · exact fun hr => ⟨(h r hr.2).mp hr.1, hr.2⟩
  · exact fun hr => ⟨(h r hr.2).mpr hr.1, hr.2⟩

theorem get?_update {p : ρ → Bool} {f : ρ → ρ} {hf : ∀ r, key (f r) = key r} (k : κ) :
    (t.update p f hf).get? k = (t.get? k).map (fun r => if p r then f r else r) := by
  have hkeys : ∀ r, key (if p r then f r else r) = key r := by
    intro r
    split
    · exact hf r
    · rfl
  cases hget : t.get? k with
  | some r =>
      obtain ⟨hr, hkey⟩ := get?_eq_some.mp hget
      refine get?_eq_some.mpr ⟨mem_update_of_mem hr, ?_⟩
      rw [hkeys, hkey]
  | none =>
      refine get?_eq_none.mpr (fun hmem => ?_)
      obtain ⟨r', hr', hkey⟩ := List.mem_map.mp hmem
      obtain ⟨r, hr, rfl⟩ := mem_update.mp hr'
      rw [hkeys] at hkey
      exact get?_eq_none.mp hget (List.mem_map.mpr ⟨r, hr, hkey⟩)

theorem get?_insert {new : ρ} {h : key new ∉ t.rows.map key} (k : κ) :
    (t.insert new h).get? k = if key new = k then some new else t.get? k := by
  split
  · next hkey =>
      exact get?_eq_some.mpr ⟨List.mem_append_right _ (List.mem_singleton.mpr rfl), hkey⟩
  · next hkey =>
      refine get?_congr (fun r hr => ?_)
      show r ∈ t.rows ++ [new] ↔ r ∈ t.rows
      rw [List.mem_append, List.mem_singleton]
      refine or_iff_left (fun heq => hkey ?_)
      rw [← heq, hr]

theorem get?_upsert {new : ρ} {f : ρ → ρ} {hf : ∀ r, key (f r) = key r} (k : κ) :
    (t.upsert new f hf).get? k =
      if key new = k then some ((t.get? k).elim new f) else t.get? k := by
  unfold upsert
  split
  · next hin =>
      rw [get?_update]
      split
      · next hkey =>
          cases hget : t.get? k with
          | none => exact absurd (hkey ▸ hin) (get?_eq_none.mp hget)
          | some r =>
              have hr : key r = key new := (get?_key hget).trans hkey.symm
              simp [hr]
      · next hkey =>
          cases hget : t.get? k with
          | none => rfl
          | some r =>
              have hr : key r ≠ key new := fun heq => hkey (heq.symm.trans (get?_key hget))
              simp [hr]
  · next hout =>
      rw [get?_insert]
      split
      · next hkey =>
          rw [hkey] at hout
          rw [get?_eq_none.mpr hout]
          rfl
      · rfl

theorem upsert_eq_self {new r : ρ} {f : ρ → ρ} {hf : ∀ r, key (f r) = key r}
    (hget : t.get? (key new) = some r) (hsame : f r = r) : t.upsert new f hf = t := by
  obtain ⟨hr, hkey⟩ := get?_eq_some.mp hget
  have hmem : key new ∈ t.rows.map key := hkey ▸ List.mem_map_of_mem hr
  rw [upsert, dif_pos hmem, update_eq_self_iff]
  intro r' hr' hkey'
  rw [eq_of_key hr' hr ((of_decide_eq_true hkey').trans hkey.symm), hsame]

end Lookup

end Table
