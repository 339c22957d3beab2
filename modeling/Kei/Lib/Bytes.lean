import Mathlib.Data.List.Induction
import Mathlib.Algebra.Ring.Nat

/-!
# Kei.Lib.Bytes

Byte-list plumbing for binary formats: ranges of a buffer, big-endian
integers of a fixed width, and writes in place.

A format's parser reads ranges of one buffer by absolute position, while its
proofs talk about a buffer as a concatenation of parts.  The lemmas here
translate between the two, so that the proofs above never redo list
arithmetic.  Nothing here is about a particular format.
-/

namespace Bytes

/-! ## ranges of a buffer -/

/-- The part of `bs` from position `a` up to, but not including, `b`. -/
def slice (bs : List α) (a b : Nat) : List α := (bs.drop a).take (b - a)

/-- Checked form of `slice`: a range that is not inside the buffer is `none`. -/
def slice? (bs : List α) (a b : Nat) : Option (List α) :=
  if a ≤ b ∧ b ≤ bs.length then some (slice bs a b) else none

variable {a b : Nat}

theorem slice?_eq_some {bs r : List α} :
    slice? bs a b = some r ↔ a ≤ b ∧ b ≤ bs.length ∧ slice bs a b = r := by
  unfold slice?
  split
  · next h => simp [h]
  · next h => simp only [reduceCtorEq, false_iff]; intro h'; exact h ⟨h'.1, h'.2.1⟩

theorem slice?_of_le {bs : List α} (hab : a ≤ b) (hb : b ≤ bs.length) :
    slice? bs a b = some (slice bs a b) := if_pos ⟨hab, hb⟩

theorem length_slice {bs : List α} (hab : a ≤ b) (hb : b ≤ bs.length) :
    (slice bs a b).length = b - a := by
  simp only [slice, List.length_take, List.length_drop]; omega

/-- The range that covers a middle part of a concatenation is that part. -/
theorem slice_append_mid (xs ys zs : List α) (ha : a = xs.length) (hb : b = xs.length + ys.length) :
    slice (xs ++ ys ++ zs) a b = ys := by
  subst ha hb
  simp [slice, List.append_assoc]

/-- A range inside the left part of a concatenation only sees that part. -/
theorem slice_append_left (xs ys : List α) (hb : b ≤ xs.length) :
    slice (xs ++ ys) a b = slice xs a b := by
  unfold slice
  by_cases ha : a ≤ xs.length
  · rw [List.drop_append, Nat.sub_eq_zero_of_le ha, List.drop_zero, List.take_append]
    have hz : b - a - (xs.drop a).length = 0 := by rw [List.length_drop]; omega
    rw [hz, List.take_zero, List.append_nil]
  · have hz : b - a = 0 := by omega
    simp [hz]

/-- A range past the left part of a concatenation only sees the right part. -/
theorem slice_append_right (xs ys : List α) (ha : xs.length ≤ a) :
    slice (xs ++ ys) a b = slice ys (a - xs.length) (b - xs.length) := by
  unfold slice
  rw [List.drop_append, List.drop_eq_nil_of_le ha, List.nil_append]
  congr 1
  omega

theorem slice_append_add (xs ys : List α) (a b : Nat) :
    slice (xs ++ ys) (xs.length + a) (xs.length + b) = slice ys a b := by
  rw [slice_append_right xs ys (Nat.le_add_right _ _)]
  simp

theorem slice_zero_length (bs : List α) : slice bs 0 bs.length = bs := by simp [slice]

theorem take_slice_drop (bs : List α) (hab : a ≤ b) :
    bs.take a ++ slice bs a b ++ bs.drop b = bs := by
  have hd : bs.drop b = (bs.drop a).drop (b - a) := by
    rw [List.drop_drop]; congr 1; omega
  rw [slice, List.append_assoc, hd, List.take_append_drop, List.take_append_drop]

theorem slice_slice (bs : List α) {a b c d : Nat} (h : a + d ≤ b) :
    slice (slice bs a b) c d = slice bs (a + c) (a + d) := by
  unfold slice
  rw [List.drop_take, List.drop_drop, List.take_take]
  congr 1
  omega

theorem slice_append_slice (bs : List α) {a b c : Nat} (hab : a ≤ b) (hbc : b ≤ c) :
    slice bs a b ++ slice bs b c = slice bs a c := by
  have hd : bs.drop b = (bs.drop a).drop (b - a) := by
    rw [List.drop_drop]; congr 1; omega
  unfold slice
  rw [hd, show c - a = (b - a) + (c - b) by omega, List.take_add]

/-! ## fixed-width big-endian integers -/

/-- The number a byte string spells in big-endian order. -/
def beNat (bs : List UInt8) : Nat := bs.foldl (fun n b => n * 256 + b.toNat) 0

/-- The low `w` bytes of `n` in big-endian order. -/
def toBe : Nat → Nat → List UInt8
  | 0, _ => []
  | w + 1, n => toBe w (n / 256) ++ [UInt8.ofNat n]

@[simp] theorem length_toBe (w n : Nat) : (toBe w n).length = w := by
  induction w generalizing n with
  | zero => rfl
  | succ w ih => simp [toBe, ih]

theorem beNat_append_singleton (bs : List UInt8) (b : UInt8) :
    beNat (bs ++ [b]) = beNat bs * 256 + b.toNat := by
  simp [beNat]

theorem beNat_toBe {w n : Nat} (h : n < 256 ^ w) : beNat (toBe w n) = n := by
  induction w generalizing n with
  | zero => simp only [Nat.pow_zero, Nat.lt_one_iff] at h; subst h; rfl
  | succ w ih =>
      have hdiv : n / 256 < 256 ^ w := by
        rw [Nat.div_lt_iff_lt_mul (by decide), ← Nat.pow_succ]; exact h
      rw [toBe, beNat_append_singleton, ih hdiv]
      have hmod : (UInt8.ofNat n).toNat = n % 256 := by simp
      rw [hmod]
      omega

theorem beNat_lt (bs : List UInt8) : beNat bs < 256 ^ bs.length := by
  induction bs using List.reverseRecOn with
  | nil => exact Nat.one_pos
  | append_singleton bs b ih =>
      have hb : b.toNat < 256 := b.toNat_lt
      rw [beNat_append_singleton, List.length_append, List.length_singleton, Nat.pow_succ]
      omega

theorem toBe_beNat (bs : List UInt8) : toBe bs.length (beNat bs) = bs := by
  induction bs using List.reverseRecOn with
  | nil => rfl
  | append_singleton bs b ih =>
      have hb : b.toNat < 256 := b.toNat_lt
      have hdiv : (beNat bs * 256 + b.toNat) / 256 = beNat bs := by omega
      have hlow : UInt8.ofNat (beNat bs * 256 + b.toNat) = b := by
        apply UInt8.toNat_inj.mp
        simp only [UInt8.toNat_ofNat']
        omega
      rw [beNat_append_singleton, List.length_append, List.length_singleton, toBe, hdiv, ih, hlow]

/-! ## writes in place -/

/-- Replace the bytes from position `pos` on by `new`, keeping every other byte. -/
def overwrite (bs : List α) (pos : Nat) (new : List α) : List α :=
  bs.take pos ++ new ++ bs.drop (pos + new.length)

/-- A write over a middle part of the same length replaces exactly that part. -/
theorem overwrite_append_mid (xs old new ys : List α) {pos : Nat} (hpos : pos = xs.length)
    (hlen : old.length = new.length) :
    overwrite (xs ++ old ++ ys) pos new = xs ++ new ++ ys := by
  subst hpos
  unfold overwrite
  rw [List.append_assoc xs old ys, List.take_left, ← hlen, ← List.length_append,
    ← List.append_assoc, List.drop_left]

theorem length_overwrite {bs new : List α} {pos : Nat} (h : pos + new.length ≤ bs.length) :
    (overwrite bs pos new).length = bs.length := by
  simp only [overwrite, List.length_append, List.length_take, List.length_drop]; omega

/-- A write in the left part of a concatenation only changes that part. -/
theorem overwrite_append_left (xs ys new : List α) {pos : Nat} (h : pos + new.length ≤ xs.length) :
    overwrite (xs ++ ys) pos new = overwrite xs pos new ++ ys := by
  unfold overwrite
  rw [List.take_append_of_le_length (by omega), List.drop_append_of_le_length h]
  simp only [List.append_assoc]

/-- A write in the right part of a concatenation only changes that part. -/
theorem overwrite_append_right (xs ys new : List α) (pos : Nat) :
    overwrite (xs ++ ys) (xs.length + pos) new = xs ++ overwrite ys pos new := by
  unfold overwrite
  rw [List.take_length_add_append, Nat.add_assoc, List.drop_length_add_append]
  simp only [List.append_assoc]

theorem slice_overwrite_self {bs new : List α} {pos : Nat} (h : pos + new.length ≤ bs.length) :
    slice (overwrite bs pos new) pos (pos + new.length) = new := by
  have htake : (bs.take pos).length = pos := by rw [List.length_take]; omega
  exact slice_append_mid _ _ _ htake.symm (by rw [htake])

theorem overwrite_slice {bs new : List α} {pos : Nat} (h : slice bs pos (pos + new.length) = new) :
    overwrite bs pos new = bs := by
  have hall := take_slice_drop bs (a := pos) (b := pos + new.length) (Nat.le_add_right _ _)
  rwa [h] at hall

end Bytes
