import Mathlib.Data.List.Count
import Mathlib.Tactic.Ring

/-!
# Kei.Lib.Sweep

A list that is looked at page by page, in turns that remember an offset only.

A turn takes the bad items of its page out of the list.  The items behind them
move up, and the next turns go past them; a later sweep finds them.  After
enough turns nothing in the list is bad.
-/

namespace Sweep

variable {α : Type}

/-- An offset that is not in the list is that of the first page. -/
def start (offset : Nat) (l : List α) : Nat := if offset < l.length then offset else 0

def page (size offset : Nat) (l : List α) : List α := (l.drop (start offset l)).take size

/-- Behind the last page the sweep starts again. -/
def next (size offset : Nat) (l : List α) : Nat :=
  if start offset l + size < l.length then start offset l + size else 0

/-- What is left of the list. -/
def rest (size : Nat) (bad : α → Bool) (offset : Nat) (l : List α) : List α :=
  l.take (start offset l) ++ (page size offset l).filter (fun x => !bad x) ++
    l.drop (start offset l + size)

def turns (size : Nat) (bad : α → Bool) : Nat → Nat → List α → List α
  | 0, _, l => l
  | n + 1, offset, l => turns size bad n (next size offset l) (rest size bad offset l)

variable {size offset i : Nat} {bad : α → Bool} {l : List α} {x : α}

theorem split (size offset : Nat) (l : List α) :
    l.take (start offset l) ++ page size offset l ++ l.drop (start offset l + size) = l := by
  rw [page, List.append_assoc, ← List.drop_drop, List.take_append_drop, List.take_append_drop]

/-- Where nothing is there twice, the bad items of the page are taken out. -/
theorem rest_eq_filter [DecidableEq α] (hl : l.Nodup) : rest size bad offset l =
    l.filter (fun x => !((page size offset l).contains x && bad x)) := by
  have hsplit := split size offset l
  have hparts := hsplit ▸ hl
  rw [rest]
  generalize page size offset l = page at *
  obtain ⟨hleft, -, hright⟩ := List.nodup_append.mp hparts
  have hbefore := (List.nodup_append.mp hleft).2.2
  have houter (part : List α) (h : ∀ x ∈ part, x ∉ page) :
      part.filter (fun x => !(page.contains x && bad x)) = part :=
    List.filter_eq_self.mpr fun x hx => by simp [h x hx]
  conv => rhs; rw [← hsplit]
  rw [List.filter_append, List.filter_append,
    houter _ fun x hx hin => hbefore x hx x hin rfl,
    houter _ fun x hx hin => hright x (List.mem_append_right _ hin) x hx rfl]
  exact congrArg (_ ++ · ++ _) (List.filter_congr fun x hx => by simp [hx])

theorem rest_of_clean (h : ∀ x ∈ page size offset l, bad x = false) :
    rest size bad offset l = l := by
  have hpage : (page size offset l).filter (fun x => !bad x) = page size offset l :=
    List.filter_eq_self.mpr fun x hx => by rw [h x hx]; rfl
  rw [rest, hpage, split]

theorem rest_sublist (size : Nat) (bad : α → Bool) (offset : Nat) (l : List α) :
    (rest size bad offset l).Sublist l := by
  conv => rhs; rw [← split size offset l]
  exact ((List.Sublist.refl _).append List.filter_sublist).append (List.Sublist.refl _)

theorem countP_rest_lt (hx : x ∈ page size offset l) (hbad : bad x = true) :
    (rest size bad offset l).countP bad < l.countP bad := by
  have hnone : ((page size offset l).filter (fun x => !bad x)).countP bad = 0 := by
    simp [List.countP_eq_zero]
  have hsome : 0 < (page size offset l).countP bad := List.countP_pos_iff.mpr ⟨x, hx, hbad⟩
  have hsplit := congrArg (List.countP bad) (split size offset l)
  rw [List.countP_append, List.countP_append] at hsplit
  rw [rest, List.countP_append, List.countP_append, hnone]
  omega

/-! ## how far an item is -/

/-- The turns before the one whose page has the item at `i`. -/
def distance (size offset i : Nat) (l : List α) : Nat :=
  if offset ≤ i then (i - offset) / size else (l.length - offset) / size + 1 + i / size

theorem distance_le (hi : i < l.length) : distance size offset i l ≤ l.length / size + 1 := by
  have hnear : (i - offset) / size ≤ l.length / size := Nat.div_le_div_right (by omega)
  unfold distance
  split
  · omega
  · next hpast =>
      have hsum : (l.length - offset) / size + i / size ≤ (l.length - offset + i) / size :=
        Nat.div_add_div_le_add_div
      have hfar : (l.length - offset + i) / size ≤ l.length / size :=
        Nat.div_le_div_right (by omega)
      omega

/-- A page without the item is followed by one that is nearer. -/
theorem distance_next (hsize : 0 < size) (hi : l[i]? = some x)
    (hout : x ∉ page size offset l) :
    distance size (next size offset l) i l < distance size offset i l := by
  have hlt : i < l.length := (List.getElem?_eq_some_iff.mp hi).1
  have hoff : i < start offset l ∨ start offset l + size ≤ i := by
    by_contra hin
    refine hout (List.mem_of_getElem? (i := i - start offset l) ?_)
    rw [page, List.getElem?_take_of_lt (by omega), List.getElem?_drop,
      Nat.add_sub_cancel' (by omega), hi]
  have hturn (a b : Nat) (h : a + size ≤ b) : (b - (a + size)) / size + 1 = (b - a) / size := by
    rw [← Nat.add_div_right _ hsize]
    congr 1
    omega
  have hitem := hturn offset i
  have hend := hturn offset l.length
  have hfirst := hturn 0 i
  have hzero : (i - 0) / size = i / size := rfl
  have hpos := Nat.zero_le ((l.length - offset) / size)
  unfold distance next start at *
  split_ifs at * <;> omega

/-! ## many turns -/

theorem turns_add (m n offset : Nat) (l : List α) : ∃ offset',
    turns size bad (m + n) offset l = turns size bad n offset' (turns size bad m offset l) := by
  induction m generalizing offset l with
  | zero => exact ⟨offset, by rw [Nat.zero_add, turns]⟩
  | succ m ih => rw [Nat.succ_add]; exact ih _ _

theorem turns_of_clean (h : ∀ x ∈ l, bad x = false) (n offset : Nat) :
    turns size bad n offset l = l := by
  induction n generalizing offset with
  | zero => rfl
  | succ n ih =>
      have hrest : rest size bad offset l = l :=
        rest_of_clean fun x hx => h x (List.drop_subset _ _ (List.take_subset _ _ hx))
      rw [turns, hrest, ih]

/-- A bad item is found, it or another one. -/
theorem turns_find (hsize : 0 < size) (hi : l[i]? = some x) (hbad : bad x = true) :
    ∃ n ≤ distance size offset i l + 1,
      (turns size bad n offset l).countP bad < l.countP bad ∧
        (turns size bad n offset l).Sublist l := by
  induction hdist : distance size offset i l using Nat.strongRecOn generalizing offset with
  | ind d ih =>
      by_cases hfound : ∃ y ∈ page size offset l, bad y = true
      · obtain ⟨y, hy, hybad⟩ := hfound
        exact ⟨1, by omega, countP_rest_lt hy hybad, rest_sublist _ _ _ _⟩
      · have hout : x ∉ page size offset l := fun hin => hfound ⟨x, hin, hbad⟩
        have hclean := rest_of_clean fun y hy => eq_false_of_ne_true fun h => hfound ⟨y, hy, h⟩
        have hnear := hdist ▸ distance_next hsize hi hout
        obtain ⟨n, hn, hless⟩ := ih _ hnear rfl
        exact ⟨n + 1, by omega, by rwa [turns, hclean]⟩

/-- **Nothing bad is left** after one sweep for each bad item, and from then on. -/
theorem turns_clean (hsize : 0 < size) {n : Nat}
    (hn : l.countP bad * (l.length / size + 2) ≤ n) :
    ∀ x ∈ turns size bad n offset l, bad x = false := by
  induction hcount : l.countP bad using Nat.strongRecOn generalizing l offset n with
  | ind b ih =>
      by_cases hsome : ∃ x ∈ l, bad x = true
      · obtain ⟨x, hx, hbad⟩ := hsome
        obtain ⟨i, hi⟩ := List.getElem?_of_mem hx
        obtain ⟨k, hk, hless, hsub⟩ := @turns_find _ size offset i bad l x hsize hi hbad
        have hnear := @distance_le _ size offset i l (List.getElem?_eq_some_iff.mp hi).1
        have hlen : (turns size bad k offset l).length / size ≤ l.length / size :=
          Nat.div_le_div_right hsub.length_le
        have hmany : (turns size bad k offset l).countP bad *
            ((turns size bad k offset l).length / size + 2) + (l.length / size + 2) ≤ n :=
          calc _ ≤ (turns size bad k offset l).countP bad * (l.length / size + 2) +
                (l.length / size + 2) := by gcongr
            _ = ((turns size bad k offset l).countP bad + 1) * (l.length / size + 2) := by ring
            _ ≤ l.countP bad * (l.length / size + 2) := by gcongr; omega
            _ ≤ n := hn
        obtain ⟨m, rfl⟩ := Nat.exists_eq_add_of_le (show k ≤ n by omega)
        obtain ⟨offset', hturns⟩ := @turns_add _ size bad k m offset l
        rw [hturns]
        exact ih _ (hcount ▸ hless) (by omega) rfl
      · have hclean : ∀ x ∈ l, bad x = false :=
          fun x hx => eq_false_of_ne_true fun h => hsome ⟨x, hx, h⟩
        rwa [turns_of_clean hclean]

end Sweep
