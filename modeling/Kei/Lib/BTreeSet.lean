import Mathlib.Data.List.Sort

/-!
# Kei.Lib.BTreeSet

Ordered sets that iterate in ascending order: the source's `BTreeSet`.

The value is the list of elements in iteration order, and the structure
carries the proof that this list is strictly ascending, so an unsorted or
repeating set cannot be built and two sets with the same elements are equal.
-/

/-- An ordered set, as the strictly ascending list of its elements. -/
structure BTreeSet (α : Type) [LinearOrder α] where
  /-- The elements in iteration order. -/
  elems : List α
  /-- Iteration is strictly ascending. -/
  sorted : elems.Pairwise (· < ·)

namespace BTreeSet

variable {α : Type} [LinearOrder α]

instance : Membership α (BTreeSet α) := ⟨fun s a => a ∈ s.elems⟩

variable {s : BTreeSet α}

theorem mem_def {a : α} : a ∈ s ↔ a ∈ s.elems := Iff.rfl

instance (a : α) (s : BTreeSet α) : Decidable (a ∈ s) := inferInstanceAs (Decidable (a ∈ s.elems))

theorem ext {s t : BTreeSet α} (h : ∀ a, a ∈ s ↔ a ∈ t) : s = t := by
  obtain ⟨l, hl⟩ := s
  obtain ⟨r, hr⟩ := t
  have hlr : l = r := hl.eq_of_mem_iff hr h
  subst hlr
  rfl

instance : DecidableEq (BTreeSet α) := fun s t =>
  decidable_of_iff (s.elems = t.elems)
    ⟨fun h => ext (fun a => by rw [mem_def, mem_def, h]), fun h => congrArg _ h⟩

/-! ## the empty set and insertion -/

/-- `BTreeSet::new`. -/
def empty : BTreeSet α := ⟨[], List.Pairwise.nil⟩

@[simp] theorem not_mem_empty (a : α) : a ∉ (empty : BTreeSet α) := by
  simp [mem_def, empty]

@[simp] theorem elems_empty : (empty : BTreeSet α).elems = [] := rfl

/-- Insertion into a sorted list, which keeps one copy of each element. -/
def insertSorted (a : α) : List α → List α
  | [] => [a]
  | b :: l => if a < b then a :: b :: l else if a = b then b :: l else b :: insertSorted a l

theorem mem_insertSorted {a x : α} {l : List α} :
    x ∈ insertSorted a l ↔ x = a ∨ x ∈ l := by
  induction l with
  | nil => simp [insertSorted]
  | cons b l ih =>
      unfold insertSorted
      split
      · simp
      · split
        · next h => subst h; simp
        · simp only [List.mem_cons, ih]; tauto

theorem sorted_insertSorted {a : α} {l : List α} (h : l.Pairwise (· < ·)) :
    (insertSorted a l).Pairwise (· < ·) := by
  induction l with
  | nil => simp [insertSorted]
  | cons b l ih =>
      obtain ⟨hb, hl⟩ := List.pairwise_cons.mp h
      unfold insertSorted
      split
      · next hab =>
          refine List.pairwise_cons.mpr ⟨fun x hx => ?_, h⟩
          rcases List.mem_cons.mp hx with rfl | hx
          · exact hab
          · exact lt_trans hab (hb x hx)
      · next hab =>
          split
          · exact h
          · next hne =>
              refine List.pairwise_cons.mpr ⟨fun x hx => ?_, ih hl⟩
              rcases mem_insertSorted.mp hx with rfl | hx
              · exact lt_of_le_of_ne (not_lt.mp hab) (Ne.symm hne)
              · exact hb x hx

/-- `BTreeSet::insert`, without its result. -/
def insert (s : BTreeSet α) (a : α) : BTreeSet α :=
  ⟨insertSorted a s.elems, sorted_insertSorted s.sorted⟩

@[simp] theorem mem_insert {a x : α} : x ∈ s.insert a ↔ x = a ∨ x ∈ s :=
  mem_insertSorted

/-- `is_empty`. -/
def isEmpty (s : BTreeSet α) : Bool := s.elems.isEmpty

@[simp] theorem isEmpty_iff : s.isEmpty = true ↔ s = empty := by
  constructor
  · intro h
    refine ext (fun a => ?_)
    rw [mem_def, List.isEmpty_iff.mp h]
    simp
  · intro h; subst h; rfl

@[simp] theorem isEmpty_eq_false : s.isEmpty = false ↔ s ≠ empty := by
  rw [Ne, ← isEmpty_iff, Bool.not_eq_true]

/-- The elements of `s` and of `t`, in the order of `s`: `BTreeSet::intersection`. -/
def intersection (s t : BTreeSet α) : List α := s.elems.filter (· ∈ t)

/-! ## building a set by insertion -/

/-- Inserting a list of elements one after the other. -/
def insertAll (s : BTreeSet α) (l : List α) : BTreeSet α := l.foldl insert s

theorem mem_insertAll {l : List α} {x : α} : x ∈ s.insertAll l ↔ x ∈ s ∨ x ∈ l := by
  induction l generalizing s with
  | nil => simp [insertAll]
  | cons a l ih =>
      have h := ih (s := s.insert a)
      rw [insertAll] at h ⊢
      rw [List.foldl_cons, h, mem_insert, List.mem_cons]
      tauto

theorem insertAll_elems (s : BTreeSet α) : empty.insertAll s.elems = s :=
  ext (fun a => by rw [mem_insertAll]; simp [mem_def])

theorem nodup_elems (s : BTreeSet α) : s.elems.Nodup :=
  s.sorted.imp (fun h => ne_of_lt h)

end BTreeSet
