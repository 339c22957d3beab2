import Kei.Heif.Boxes
import Kei.Lib.Tiling

/-!
# Kei.Heif.Encoded

Boxes as data, and the bytes that spell them.

A range of bytes scans as boxes just when it is the concatenation of their
encodings, so that what is read of a file, and what is written, is said about
lists of boxes rather than positions.
-/

namespace Kei.Heif

open Bytes Fallible

/-- A box: its kind, its body, and whether its size takes eight bytes more. -/
@[ext] structure Atom where
  kind : List UInt8
  wide : Bool
  body : List UInt8
  kind_length : kind.length = 4
  fits : if wide then body.length + 16 < 2 ^ 64 else body.length + 8 < 2 ^ 32

namespace Atom

variable (a : Atom)

def headerSize : Nat := if a.wide then 16 else 8

def size : Nat := a.headerSize + a.body.length

def header : List UInt8 :=
  if a.wide then toBe 4 1 ++ a.kind ++ toBe 8 a.size else toBe 4 a.size ++ a.kind

def encode : List UInt8 := a.header ++ a.body

/-- Where the box is when its first byte is at a position. -/
def rawBox (start : Nat) : RawBox := ⟨start, a.size, a.headerSize, a.kind⟩

@[simp] theorem rawBox_start (start : Nat) : (a.rawBox start).start = start := rfl

@[simp] theorem rawBox_kind (start : Nat) : (a.rawBox start).kind = a.kind := rfl

@[simp] theorem rawBox_size (start : Nat) : (a.rawBox start).size = a.size := rfl

@[simp] theorem rawBox_headerSize (start : Nat) :
    (a.rawBox start).headerSize = a.headerSize := rfl

@[simp] theorem rawBox_stop (start : Nat) : (a.rawBox start).stop = start + a.size := rfl

@[simp] theorem rawBox_bodyStart (start : Nat) :
    (a.rawBox start).bodyStart = start + a.headerSize := rfl

@[simp] theorem length_header : a.header.length = a.headerSize := by
  unfold header headerSize
  cases a.wide <;> simp [a.kind_length]

@[simp] theorem length_encode : a.encode.length = a.size := by
  simp [encode, size]

theorem headerSize_le_size : a.headerSize ≤ a.size := Nat.le_add_right _ _

theorem eight_le_headerSize : 8 ≤ a.headerSize := by
  unfold headerSize
  split <;> decide

theorem eight_le_size : 8 ≤ a.size := Nat.le_trans a.eight_le_headerSize a.headerSize_le_size

end Atom

def encodeAll (atoms : List Atom) : List UInt8 := atoms.flatMap Atom.encode

@[simp] theorem encodeAll_nil : encodeAll [] = [] := rfl

@[simp] theorem encodeAll_cons (a : Atom) (atoms : List Atom) :
    encodeAll (a :: atoms) = a.encode ++ encodeAll atoms := rfl

@[simp] theorem encodeAll_append (atoms atoms' : List Atom) :
    encodeAll (atoms ++ atoms') = encodeAll atoms ++ encodeAll atoms' :=
  List.flatMap_append

/-- Where boxes are that follow each other. -/
def rawBoxes : Nat → List Atom → List RawBox
  | _, [] => []
  | start, a :: atoms => a.rawBox start :: rawBoxes (start + a.size) atoms

/-! ## one box -/

theorem drop_of_slice?_eq_some {bytes part : List UInt8} {start stop : Nat}
    (h : slice? bytes start stop = some part) : bytes.drop start = part ++ bytes.drop stop := by
  obtain ⟨hle, -, rfl⟩ := slice?_eq_some.mp h
  have hdrop : bytes.drop stop = (bytes.drop start).drop (stop - start) := by
    rw [List.drop_drop, Nat.add_sub_cancel' hle]
  rw [slice, hdrop, List.take_append_drop]

theorem slice?_of_drop {bytes part rest : List UInt8} {start stop : Nat}
    (h : bytes.drop start = part ++ rest) (hne : part ≠ []) (hstop : stop = start + part.length) :
    slice? bytes start stop = some part := by
  have hlen := congrArg List.length h
  have hpos : 0 < part.length := List.length_pos_iff.mpr hne
  rw [List.length_drop, List.length_append] at hlen
  rw [slice?_of_le (by omega) (by omega), slice, h, hstop, Nat.add_sub_cancel_left,
    List.take_left]

theorem beNat_slice_toBe {w n : Nat} (h : n < 256 ^ w) (rest : List UInt8) :
    beNat (slice (toBe w n ++ rest) 0 w) = n := by
  rw [slice_append_left _ _ (Nat.le_of_eq (length_toBe w n).symm)]
  have hall := slice_zero_length (toBe w n)
  rw [length_toBe] at hall
  rw [hall, beNat_toBe h]

theorem slice_toBe_right (w n : Nat) (part : List UInt8) :
    slice (toBe w n ++ part) w (w + part.length) = part := by
  simpa using slice_append_mid (toBe w n) part [] (by simp) (by simp)

/-- The two parts of a header, of which the second is there if the box is wide. -/
theorem header_eq (a : Atom) : a.header =
    toBe 4 (if a.wide then 1 else a.size) ++ a.kind ++ (if a.wide then toBe 8 a.size else []) := by
  unfold Atom.header
  cases a.wide <;> simp

theorem parseBoxSize_encode {bytes rest : List UInt8} {start : Nat} (a : Atom)
    (h : bytes.drop start = a.encode ++ rest) :
    parseBoxSize bytes start (if a.wide then 1 else a.size) = .ok (a.headerSize, a.size) := by
  have hfit := a.fits
  cases hwide : a.wide with
  | false =>
      have hsize := a.eight_le_size
      have hne0 : a.size ≠ 0 := by omega
      have hne1 : a.size ≠ 1 := by omega
      have hheader : a.headerSize = 8 := by simp [Atom.headerSize, hwide]
      simp [parseBoxSize, hne0, hne1, hheader, pure, Except.pure]
  | true =>
      have hheader : a.headerSize = 16 := by simp [Atom.headerSize, hwide]
      have hsmall : a.size < 256 ^ 8 := by
        rw [hwide, if_pos rfl] at hfit
        rw [Atom.size, hheader]
        omega
      have hlarge : slice? bytes (start + 8) (start + 16) = some (toBe 8 a.size) := by
        refine @slice?_of_drop _ _ (a.body ++ rest) _ _ ?_ (by simp [← List.length_eq_zero_iff])
          (by simp)
        rw [← List.drop_drop, h, Atom.encode, header_eq, hwide, if_pos rfl, if_pos rfl]
        simp only [List.append_assoc]
        rw [← List.append_assoc]
        exact List.drop_left' (by simp [a.kind_length])
      simp [parseBoxSize, hlarge, beNat_toBe hsmall, hheader, pure, Except.pure]

/-- An encoded box is parsed back. -/
theorem parseRawBox_encode {bytes rest : List UInt8} {start : Nat} (a : Atom)
    (h : bytes.drop start = a.encode ++ rest) (hfits : start + a.size < 2 ^ 64) :
    parseRawBox bytes start = .ok (a.rawBox start) := by
  have hlen := congrArg List.length h
  rw [List.length_drop, List.length_append, a.length_encode] at hlen
  have hsize := a.eight_le_size
  have hbound : start + a.size ≤ bytes.length := by omega
  have hadd : checkedAdd start a.size = some (start + a.size) :=
    checkedAdd_eq_some.mpr ⟨hfits, rfl⟩
  have hsize32 : (if a.wide then 1 else a.size) < 256 ^ 4 := by
    have hfit := a.fits
    have hhead : a.headerSize = if a.wide then 16 else 8 := rfl
    cases hwide : a.wide with
    | false =>
        rw [hwide, if_neg (by decide)] at hfit hhead
        rw [if_neg (by decide), Atom.size, hhead]
        omega
    | true => simp
  have hslice : slice? bytes start (start + 8) =
      some (toBe 4 (if a.wide then 1 else a.size) ++ a.kind) := by
    refine @slice?_of_drop _ _
      ((if a.wide then toBe 8 a.size else []) ++ (a.body ++ rest)) _ _ ?_
      (by simp [← List.length_eq_zero_iff]) (by simp [a.kind_length])
    rw [h, Atom.encode, header_eq]
    simp only [List.append_assoc]
  have hkind (n : Nat) : slice (toBe 4 n ++ a.kind) 4 8 = a.kind := by
    simpa [a.kind_length] using slice_toBe_right 4 n a.kind
  unfold parseRawBox
  rw [hslice, require_some, ok_bind, beNat_slice_toBe hsize32, parseBoxSize_encode a h, hkind]
  simp [ensure_of, a.headerSize_le_size, hadd, hbound, Atom.rawBox, pure, Except.pure]

theorem drop_of_parseBoxSize {bytes : List UInt8} {start size32 headerSize size : Nat}
    (h : parseBoxSize bytes start size32 = .ok (headerSize, size)) :
    (headerSize = 8 ∧ size32 = size) ∨
    (headerSize = 16 ∧ size32 = 1 ∧ size < 256 ^ 8 ∧
      bytes.drop (start + 8) = toBe 8 size ++ bytes.drop (start + 16)) := by
  unfold parseBoxSize at h
  split at h
  · cases h
  · split at h
    · next hone =>
        simp only [bind_eq_ok, require_eq_ok, pure_eq_ok, Prod.mk.injEq] at h
        obtain ⟨large, hlarge, rfl, rfl⟩ := h
        have hlen : large.length = 8 := by
          obtain ⟨hle, hbound, rfl⟩ := slice?_eq_some.mp hlarge
          rw [length_slice hle hbound]
          omega
        refine .inr ⟨rfl, hone, hlen ▸ beNat_lt large, ?_⟩
        rw [drop_of_slice?_eq_some hlarge, ← hlen, toBe_beNat]
    · next =>
        rw [pure_eq_ok, Prod.mk.injEq] at h
        exact .inl ⟨h.1.symm, h.2⟩

/-- What is parsed as a box is the encoding of one. -/
theorem exists_atom_of_parseRawBox {bytes : List UInt8} {start : Nat} {box : RawBox}
    (h : parseRawBox bytes start = .ok box) :
    ∃ (a : Atom) (rest : List UInt8), bytes.drop start = a.encode ++ rest ∧
      start + a.size < 2 ^ 64 ∧ start + a.size ≤ bytes.length ∧ box = a.rawBox start := by
  unfold parseRawBox at h
  simp only [bind_eq_ok, require_eq_ok, ensure_eq_ok, checkedAdd_eq_some, pure_eq_ok] at h
  obtain ⟨header, hheader, ⟨headerSize, size⟩, hsize, -, hle, stop, ⟨hfits, rfl⟩, -, hbound, rfl⟩ :=
    h
  have hlen : header.length = 8 := by
    obtain ⟨hle, hbound, rfl⟩ := slice?_eq_some.mp hheader
    rw [length_slice hle hbound]
    omega
  have hkind : (slice header 4 8).length = 4 := length_slice (by decide) (by omega)
  have hsize32 : (slice header 0 4).length = 4 := length_slice (by decide) (by omega)
  have hparts : header = toBe 4 (beNat (slice header 0 4)) ++ slice header 4 8 := by
    have hjoin := slice_append_slice header (a := 0) (b := 4) (c := 8) (by decide) (by decide)
    have hall := slice_zero_length header
    rw [hlen] at hall
    have hcode := toBe_beNat (slice header 0 4)
    rw [hsize32] at hcode
    rw [hcode, hjoin, hall]
  have hdrop := drop_of_slice?_eq_some hheader
  have hlt := beNat_lt (slice header 0 4)
  rw [hsize32] at hlt
  rw [hparts] at hdrop
  generalize slice header 4 8 = kind at *
  generalize beNat (slice header 0 4) = size32 at *
  have hrest (from' : Nat) (hle : from' ≤ start + size) : bytes.drop from' =
      slice bytes from' (start + size) ++ bytes.drop (start + size) :=
    drop_of_slice?_eq_some (slice?_of_le hle hbound)
  rcases drop_of_parseBoxSize hsize with ⟨rfl, rfl⟩ | ⟨rfl, rfl, hlarge, hdrop'⟩
  · have hbody : (slice bytes (start + 8) (start + size32)).length = size32 - 8 := by
      rw [length_slice (by omega) hbound]
      omega
    let a : Atom := ⟨kind, false, slice bytes (start + 8) (start + size32), hkind, by
      rw [hbody, if_neg (by decide)]; omega⟩
    have hsize' : a.size = size32 := by
      show 8 + (slice bytes (start + 8) (start + size32)).length = size32
      rw [hbody, Nat.add_sub_cancel' hle]
    refine ⟨a, bytes.drop (start + size32), ?_, by rwa [hsize'], by rwa [hsize'], ?_⟩
    · rw [hdrop, hrest (start + 8) (by omega), Atom.encode, header_eq, hsize']
      simp [a]
    · rw [Atom.rawBox, hsize']
      rfl
  · have hbody : (slice bytes (start + 16) (start + size)).length = size - 16 := by
      rw [length_slice (by omega) hbound]
      omega
    let a : Atom := ⟨kind, true, slice bytes (start + 16) (start + size), hkind, by
      rw [hbody, if_pos rfl]; omega⟩
    have hsize' : a.size = size := by
      show 16 + (slice bytes (start + 16) (start + size)).length = size
      rw [hbody, Nat.add_sub_cancel' hle]
    refine ⟨a, bytes.drop (start + size), ?_, by rwa [hsize'], by rwa [hsize'], ?_⟩
    · rw [hdrop, hdrop', hrest (start + 16) (by omega), Atom.encode, header_eq, hsize']
      simp [a]
    · rw [Atom.rawBox, hsize']
      rfl

/-! ## boxes in a range -/

/-- The bytes have the box at its position. -/
structure Holds (bytes : List UInt8) (box : RawBox) (a : Atom) : Prop where
  rawBox : box = a.rawBox box.start
  drop : bytes.drop box.start = a.encode ++ bytes.drop box.stop

namespace Holds

variable {bytes : List UInt8} {box : RawBox} {a : Atom} (h : Holds bytes box a)

include h

theorem kind : box.kind = a.kind := by rw [h.rawBox, Atom.rawBox_kind]

theorem headerSize : box.headerSize = a.headerSize := by rw [h.rawBox, Atom.rawBox_headerSize]

theorem size : box.size = a.size := by rw [h.rawBox, Atom.rawBox_size]

theorem stop : box.stop = box.start + a.size := by rw [RawBox.stop, h.size]

theorem slice_start_stop : slice bytes box.start box.stop = a.encode := by
  rw [slice, h.drop, h.stop, Nat.add_sub_cancel_left, ← a.length_encode, List.take_left]

theorem body : bodyOf bytes box = a.body := by
  have hdrop : bytes.drop box.bodyStart = a.body ++ bytes.drop box.stop := by
    rw [RawBox.bodyStart, ← List.drop_drop, h.drop, Atom.encode, List.append_assoc]
    exact List.drop_left' (by rw [a.length_header, h.headerSize])
  have hlen : box.stop - box.bodyStart = a.body.length := by
    rw [h.stop, RawBox.bodyStart, h.headerSize, Atom.size]
    omega
  rw [bodyOf, slice, hdrop, hlen, List.take_left]

end Holds

theorem rawBoxes_append (start : Nat) (atoms atoms' : List Atom) :
    rawBoxes start (atoms ++ atoms') =
      rawBoxes start atoms ++ rawBoxes (start + (encodeAll atoms).length) atoms' := by
  induction atoms generalizing start with
  | nil => rfl
  | cons a atoms ih =>
      rw [List.cons_append, rawBoxes, ih, rawBoxes, encodeAll_cons, List.length_append,
        a.length_encode, Nat.add_assoc]
      rfl

theorem holds_rawBoxes {bytes rest : List UInt8} {start : Nat} {atoms : List Atom}
    (h : bytes.drop start = encodeAll atoms ++ rest) :
    List.Forall₂ (Holds bytes) (rawBoxes start atoms) atoms := by
  induction atoms generalizing start with
  | nil => exact .nil
  | cons a atoms ih =>
      have hrest : bytes.drop (start + a.size) = encodeAll atoms ++ rest := by
        rw [← List.drop_drop, h, encodeAll_cons, List.append_assoc]
        exact List.drop_left' a.length_encode
      refine .cons ⟨rfl, ?_⟩ (ih hrest)
      show bytes.drop start = a.encode ++ bytes.drop (start + a.size)
      rw [h, hrest, encodeAll_cons, List.append_assoc]

variable {atoms : List Atom}

/-- A box among those of some atoms is that of one of them, behind the encodings of the ones
before it. -/
theorem exists_of_mem_rawBoxes {start : Nat} {box : RawBox} (h : box ∈ rawBoxes start atoms) :
    ∃ before a after, atoms = before ++ a :: after ∧
      box = a.rawBox (start + (encodeAll before).length) := by
  induction atoms generalizing start with
  | nil => cases h
  | cons a atoms ih =>
      rcases List.mem_cons.mp h with rfl | h
      · exact ⟨[], a, atoms, rfl, rfl⟩
      · obtain ⟨before, a', after, rfl, rfl⟩ := ih h
        refine ⟨a :: before, a', after, rfl, ?_⟩
        rw [encodeAll_cons, List.length_append, a.length_encode, Nat.add_assoc]

theorem start_le_of_mem_rawBoxes {start : Nat} {box : RawBox} (h : box ∈ rawBoxes start atoms) :
    start ≤ box.start := by
  obtain ⟨before, a, after, -, rfl⟩ := exists_of_mem_rawBoxes h
  exact Nat.le_add_right _ _

theorem stop_le_of_mem_rawBoxes {start : Nat} {box : RawBox} (h : box ∈ rawBoxes start atoms) :
    box.stop ≤ start + (encodeAll atoms).length := by
  obtain ⟨before, a, after, rfl, rfl⟩ := exists_of_mem_rawBoxes h
  rw [encodeAll_append, encodeAll_cons, List.length_append, List.length_append, a.length_encode,
    ← Nat.add_assoc, ← Nat.add_assoc]
  exact Nat.le_add_right _ _

theorem pairwise_rawBoxes (start : Nat) (atoms : List Atom) :
    (rawBoxes start atoms).Pairwise (fun box box' => box.stop ≤ box'.start) := by
  induction atoms generalizing start with
  | nil => exact .nil
  | cons a atoms ih => exact .cons (fun _ h => start_le_of_mem_rawBoxes h) (ih _)

theorem scanFrom_encodeAll {bytes rest : List UInt8} {stop rounds cursor : Nat}
    (h : bytes.drop cursor = encodeAll atoms ++ rest)
    (hstop : stop = cursor + (encodeAll atoms).length) (hfits : stop < 2 ^ 64)
    (hrounds : stop - cursor ≤ rounds) :
    scanFrom bytes stop rounds cursor = .ok (rawBoxes cursor atoms) := by
  induction atoms generalizing cursor rounds with
  | nil =>
      have hend : cursor = stop := by rw [hstop, encodeAll_nil, List.length_nil, Nat.add_zero]
      cases rounds with
      | zero =>
          rw [scanFrom, ensure_of hend]
          rfl
      | succ rounds =>
          rw [scanFrom, if_neg (by omega), ensure_of hend]
          rfl
  | cons a atoms ih =>
      have hsize := a.eight_le_size
      rw [encodeAll_cons, List.length_append, a.length_encode] at hstop
      obtain ⟨rounds, rfl⟩ : ∃ n, rounds = n + 1 := ⟨rounds - 1, by omega⟩
      have hparse := @parseRawBox_encode _ (encodeAll atoms ++ rest) _ a
        (by rw [h, encodeAll_cons, List.append_assoc]) (by omega)
      have hrest : bytes.drop (cursor + a.size) = encodeAll atoms ++ rest := by
        rw [← List.drop_drop, h, encodeAll_cons, List.append_assoc]
        exact List.drop_left' a.length_encode
      rw [scanFrom, if_pos (by omega), hparse, ok_bind, Atom.rawBox_stop, ensure_of (by omega),
        ok_bind, ih hrest (by omega) (by omega)]
      rfl

/-- **Encoded boxes are scanned back.** -/
theorem scanRawBoxes_encodeAll {bytes : List UInt8} {start stop : Nat}
    (h : slice? bytes start stop = some (encodeAll atoms)) (hfits : stop < 2 ^ 64) :
    scanRawBoxes bytes start stop = .ok (rawBoxes start atoms) := by
  obtain ⟨hle, hbound, hslice⟩ := slice?_eq_some.mp h
  have hlen := length_slice hle hbound
  rw [hslice] at hlen
  rw [scanRawBoxes, ensure_of ⟨hle, hbound⟩, ok_bind]
  exact scanFrom_encodeAll (drop_of_slice?_eq_some h) (by omega) hfits (Nat.le_refl _)

theorem exists_atoms_of_scanFrom {bytes : List UInt8} {stop rounds cursor : Nat}
    {boxes : List RawBox} (h : scanFrom bytes stop rounds cursor = .ok boxes)
    (hle : cursor ≤ stop) :
    ∃ atoms : List Atom, bytes.drop cursor = encodeAll atoms ++ bytes.drop stop ∧
      stop = cursor + (encodeAll atoms).length ∧ boxes = rawBoxes cursor atoms := by
  induction rounds generalizing cursor boxes with
  | zero =>
      simp only [scanFrom, bind_eq_ok, ensure_eq_ok, pure_eq_ok] at h
      obtain ⟨-, rfl, rfl⟩ := h
      exact ⟨[], by simp [rawBoxes]⟩
  | succ rounds ih =>
      rw [scanFrom] at h
      split at h
      · simp only [bind_eq_ok, ensure_eq_ok, pure_eq_ok] at h
        obtain ⟨box, hbox, -, hstop, rest, hscan, rfl⟩ := h
        obtain ⟨a, tail, hdrop, -, -, rfl⟩ := exists_atom_of_parseRawBox hbox
        obtain ⟨atoms, hatoms, hlen, rfl⟩ := ih hscan hstop
        rw [Atom.rawBox_stop] at hatoms hlen
        have htail : tail = bytes.drop (cursor + a.size) := by
          rw [← List.drop_drop, hdrop]
          exact (List.drop_left' a.length_encode).symm
        refine ⟨a :: atoms, ?_, ?_, rfl⟩
        · rw [hdrop, htail, hatoms, encodeAll_cons, List.append_assoc]
        · rw [encodeAll_cons, List.length_append, a.length_encode, ← Nat.add_assoc]
          exact hlen
      · simp only [bind_eq_ok, ensure_eq_ok, pure_eq_ok] at h
        obtain ⟨-, rfl, rfl⟩ := h
        exact ⟨[], by simp [rawBoxes]⟩

/-- **What is scanned is the encoding of boxes.** -/
theorem exists_atoms_of_scanRawBoxes {bytes : List UInt8} {start stop : Nat}
    {boxes : List RawBox} (h : scanRawBoxes bytes start stop = .ok boxes) :
    ∃ atoms : List Atom, slice? bytes start stop = some (encodeAll atoms) ∧
      boxes = rawBoxes start atoms := by
  simp only [scanRawBoxes, bind_eq_ok, ensure_eq_ok] at h
  obtain ⟨-, ⟨hle, hbound⟩, hscan⟩ := h
  obtain ⟨atoms, hdrop, hstop, rfl⟩ := exists_atoms_of_scanFrom hscan hle
  refine ⟨atoms, slice?_eq_some.mpr ⟨hle, hbound, ?_⟩, rfl⟩
  rw [slice, hdrop, hstop, Nat.add_sub_cancel_left, List.take_left]

/-! ## finding boxes by kind -/

/-- There must be exactly one box of the kind. -/
theorem uniqueRequiredBox_eq_ok {boxes : List RawBox} {kind : List UInt8}
    {missing duplicate : String} {box : RawBox} :
    uniqueRequiredBox boxes kind missing duplicate = .ok box ↔
      boxes.filter (fun atom => atom.kind = kind) = [box] := by
  unfold uniqueRequiredBox
  generalize boxes.filter (fun atom => atom.kind = kind) = found
  cases found with
  | nil => simp
  | cons first others => cases others <;> simp

theorem uniqueOptionalBox_eq_ok {boxes : List RawBox} {kind : List UInt8} {duplicate : String}
    {box : Option RawBox} :
    uniqueOptionalBox boxes kind duplicate = .ok box ↔
      boxes.filter (fun atom => atom.kind = kind) = box.toList := by
  unfold uniqueOptionalBox
  generalize boxes.filter (fun atom => atom.kind = kind) = found
  cases found with
  | nil => cases box <;> simp
  | cons first others => cases others <;> cases box <;> simp

theorem filter_holds {bytes : List UInt8} {boxes : List RawBox}
    (h : List.Forall₂ (Holds bytes) boxes atoms) (kind : List UInt8) :
    List.Forall₂ (Holds bytes) (boxes.filter (fun box => box.kind = kind))
      (atoms.filter (fun a => a.kind = kind)) := by
  induction h with
  | nil => exact .nil
  | cons hfirst _ ih =>
      rw [List.filter_cons, List.filter_cons, hfirst.kind]
      split
      · exact .cons hfirst ih
      · exact ih

/-! ## tilings -/

/-- The header of a box has its size, in four bytes or in the eight after them. -/
inductive ExplicitSize (bytes : List UInt8) (box : RawBox) : Prop where
  | short (field : beNat (slice bytes box.start (box.start + 4)) = box.size)
      (header : box.headerSize = 8) (size : 8 ≤ box.size)
  | large (field : beNat (slice bytes box.start (box.start + 4)) = 1)
      (largesize : beNat (slice bytes (box.start + 8) (box.start + 16)) = box.size)
      (header : box.headerSize = 16) (size : 16 ≤ box.size)

/-- The size in the header is zero, for a box that goes on to the end of the range. -/
structure OpenSize (bytes : List UInt8) (stop : Nat) (box : RawBox) : Prop where
  field : beNat (slice bytes box.start (box.start + 4)) = 0
  header : box.headerSize = 8
  size : 8 ≤ box.size
  stop : box.stop = stop

/-- The range is the boxes, one after the other, and their sizes are given so. -/
structure TiledBy (sized : RawBox → Prop) (bytes : List UInt8) (start stop : Nat)
    (boxes : List RawBox) : Prop where
  tiles : Tiles RawBox.start RawBox.stop start boxes stop
  kinds : ∀ box ∈ boxes, box.kind = slice bytes (box.start + 4) (box.start + 8)
  sizes : ∀ box ∈ boxes, sized box

theorem ExplicitSize.headerSize_le {bytes : List UInt8} {box : RawBox}
    (h : ExplicitSize bytes box) : 8 ≤ box.headerSize ∧ box.headerSize ≤ box.size := by
  cases h with
  | short _ header size => omega
  | large _ _ header size => omega

theorem parseBoxSize_eq_ok {bytes : List UInt8} {start size32 headerSize size : Nat} :
    parseBoxSize bytes start size32 = .ok (headerSize, size) ↔
      (size32 ≠ 0 ∧ size32 ≠ 1 ∧ headerSize = 8 ∧ size = size32) ∨
      (size32 = 1 ∧ start + 16 ≤ bytes.length ∧ headerSize = 16 ∧
        size = beNat (slice bytes (start + 8) (start + 16))) := by
  unfold parseBoxSize
  split
  · next hzero => simp [hzero]
  · next hzero =>
      split
      · next hone =>
          simp only [bind_eq_ok, require_eq_ok, slice?_eq_some, pure_eq_ok, Prod.mk.injEq]
          grind
      · next hone =>
          simp only [pure_eq_ok, Prod.mk.injEq]
          grind

theorem parseRawBox_eq_ok {bytes : List UInt8} (hlen : bytes.length < 2 ^ 64) {start : Nat}
    {box : RawBox} :
    parseRawBox bytes start = .ok box ↔
      box.start = start ∧ box.stop ≤ bytes.length ∧
        box.kind = slice bytes (start + 4) (start + 8) ∧ ExplicitSize bytes box := by
  have hfield : slice (slice bytes start (start + 8)) 0 4 = slice bytes start (start + 4) :=
    slice_slice _ (by omega)
  have hkind : slice (slice bytes start (start + 8)) 4 8 = slice bytes (start + 4) (start + 8) :=
    slice_slice _ (by omega)
  unfold parseRawBox
  simp only [bind_eq_ok, require_eq_ok, ensure_eq_ok, checkedAdd_eq_some, pure_eq_ok,
    slice?_eq_some]
  constructor
  · rintro ⟨header, ⟨-, hheader, rfl⟩, ⟨headerSize, size⟩, hsize, -, hle, stop, ⟨-, rfl⟩, -,
      hbound, rfl⟩
    rw [hfield] at hsize
    refine ⟨rfl, hbound, hkind, ?_⟩
    obtain ⟨-, -, rfl, rfl⟩ | ⟨hone, -, rfl, rfl⟩ := parseBoxSize_eq_ok.mp hsize
    · exact .short rfl rfl hle
    · exact .large hone rfl rfl hle
  · rintro ⟨rfl, hbound, hnamed, hsized⟩
    have hle := hsized.headerSize_le
    have hstop : box.start + box.size ≤ bytes.length := hbound
    refine ⟨_, ⟨by omega, by omega, rfl⟩, (box.headerSize, box.size), ?_, (), hle.2,
      box.stop, ⟨by omega, rfl⟩, (), hbound, ?_⟩
    · rw [hfield]
      refine parseBoxSize_eq_ok.mpr ?_
      cases hsized with
      | short field header size => exact .inl ⟨by omega, by omega, header, field.symm⟩
      | large field largesize header size =>
          exact .inr ⟨field, by omega, header, largesize.symm⟩
    · rw [hkind, ← hnamed]

theorem scanFrom_rounds {bytes : List UInt8} {stop rounds rounds' cursor : Nat}
    (h : stop - cursor ≤ rounds) (h' : stop - cursor ≤ rounds') :
    scanFrom bytes stop rounds cursor = scanFrom bytes stop rounds' cursor := by
  induction rounds generalizing rounds' cursor with
  | zero =>
      cases rounds' with
      | zero => rfl
      | succ rounds' => rw [scanFrom, scanFrom, if_neg (by omega)]
  | succ rounds ih =>
      cases rounds' with
      | zero => rw [scanFrom, scanFrom, if_neg (by omega)]
      | succ rounds' =>
          rw [scanFrom, scanFrom]
          cases hparse : parseRawBox bytes cursor with
          | error e => rfl
          | ok atom =>
              obtain ⟨a, -, -, -, -, rfl⟩ := exists_atom_of_parseRawBox hparse
              have hsize := a.eight_le_size
              rw [ok_bind, ok_bind, @ih rounds' _ (by simp; omega) (by simp; omega)]

section tiled

variable {sized : RawBox → Prop} {bytes : List UInt8} {start stop : Nat} {box : RawBox}
  {boxes : List RawBox}

theorem tiledBy_nil : TiledBy sized bytes start stop [] ↔ start = stop := by
  constructor
  · intro h
    cases h.tiles
    rfl
  · rintro rfl
    exact ⟨.nil _, by simp, by simp⟩

theorem tiledBy_cons : TiledBy sized bytes start stop (box :: boxes) ↔
    box.start = start ∧ box.kind = slice bytes (start + 4) (start + 8) ∧ sized box ∧
      TiledBy sized bytes box.stop stop boxes := by
  constructor
  · rintro ⟨htiles, hkinds, hsizes⟩
    rw [List.forall_mem_cons] at hkinds hsizes
    cases htiles with
    | cons _ hrest => exact ⟨rfl, hkinds.1, hsizes.1, hrest, hkinds.2, hsizes.2⟩
  · rintro ⟨rfl, hkind, hsized, hrest⟩
    exact ⟨.cons (Nat.le_add_right _ _) hrest.tiles, List.forall_mem_cons.mpr ⟨hkind, hrest.kinds⟩,
      List.forall_mem_cons.mpr ⟨hsized, hrest.sizes⟩⟩

theorem TiledBy.first_stop
    (h : TiledBy (ExplicitSize bytes) bytes start stop (box :: boxes)) :
    start + 8 ≤ box.stop ∧ box.stop ≤ stop := by
  obtain ⟨rfl, -, hsized, hrest⟩ := tiledBy_cons.mp h
  have hheader := hsized.headerSize_le
  exact ⟨Nat.add_le_add_left (by omega) _, hrest.tiles.le⟩

theorem tiledBy_self : TiledBy (ExplicitSize bytes) bytes stop stop boxes ↔ boxes = [] := by
  cases boxes with
  | nil => simp [tiledBy_nil]
  | cons box boxes =>
      refine ⟨fun h => ?_, fun h => by contradiction⟩
      have := h.first_stop
      omega

/-- The loop ends with the boxes that tile what is left of the range. -/
theorem scanFrom_eq_ok (hlen : bytes.length < 2 ^ 64) (hbound : stop ≤ bytes.length)
    {rounds cursor : Nat} (hle : cursor ≤ stop) (hrounds : stop - cursor ≤ rounds) :
    scanFrom bytes stop rounds cursor = .ok boxes ↔
      TiledBy (ExplicitSize bytes) bytes cursor stop boxes := by
  induction rounds generalizing cursor boxes with
  | zero =>
      obtain rfl : cursor = stop := by omega
      rw [scanFrom, ensure_of rfl, ok_bind, pure_eq_ok, tiledBy_self, eq_comm]
  | succ rounds ih =>
      rw [scanFrom]
      split
      · next hlt =>
          simp only [bind_eq_ok, ensure_eq_ok, pure_eq_ok, parseRawBox_eq_ok hlen]
          constructor
          · rintro ⟨box, ⟨hstart, -, hkind, hsized⟩, -, hstop, rest, hscan, rfl⟩
            have hrest := (ih hstop (by
              have := hsized.headerSize_le
              unfold RawBox.stop
              omega)).mp hscan
            exact tiledBy_cons.mpr ⟨hstart, hkind, hsized, hrest⟩
          · intro h
            cases boxes with
            | nil =>
                have := tiledBy_nil.mp h
                omega
            | cons box rest =>
                obtain ⟨hfirst, hstop⟩ := h.first_stop
                obtain ⟨hstart, hkind, hsized, hrest⟩ := tiledBy_cons.mp h
                exact ⟨box, ⟨hstart, by omega, hkind, hsized⟩, (), hstop, rest,
                  (ih hstop (by omega)).mpr hrest, rfl⟩
      · next hge =>
          obtain rfl : cursor = stop := by omega
          rw [ensure_of rfl, ok_bind, pure_eq_ok, tiledBy_self, eq_comm]

end tiled

/-- **A range scans just when boxes tile it**, and the boxes are those of the tiling. -/
theorem scanRawBoxes_iff (bytes : List UInt8) (start stop : Nat) (hlen : bytes.length < 2 ^ 64)
    (hle : start ≤ stop) (hbound : stop ≤ bytes.length) :
    (∀ rounds, stop - start ≤ rounds →
      scanFrom bytes stop rounds start = scanRawBoxes bytes start stop) ∧
    (∀ boxes, scanRawBoxes bytes start stop = .ok boxes ↔
      TiledBy (ExplicitSize bytes) bytes start stop boxes) ∧
    ∀ boxes, scanRawBoxes bytes start stop = .ok boxes →
      boxes.Pairwise (fun box box' => box.stop ≤ box'.start) ∧
      boxes.IsChain (fun box box' => box.stop = box'.start) ∧
      ∀ box ∈ boxes, start ≤ box.start ∧ box.start + 8 ≤ box.bodyStart ∧
        box.bodyStart ≤ box.stop ∧ box.stop ≤ stop := by
  have hscan : scanRawBoxes bytes start stop = scanFrom bytes stop (stop - start) start := by
    rw [scanRawBoxes, ensure_of ⟨hle, hbound⟩, ok_bind]
  rw [hscan]
  refine ⟨fun rounds h => scanFrom_rounds h (Nat.le_refl _),
    fun boxes => scanFrom_eq_ok hlen hbound hle (Nat.le_refl _), fun boxes h => ?_⟩
  have htiled := (scanFrom_eq_ok hlen hbound hle (Nat.le_refl _)).mp h
  refine ⟨htiled.tiles.pairwise, htiled.tiles.isChain, fun box hbox => ?_⟩
  have hwithin := htiled.tiles.within hbox
  have hheader := (htiled.sizes box hbox).headerSize_le
  exact ⟨hwithin.1, Nat.add_le_add_left hheader.1 _, Nat.add_le_add_left hheader.2 _, hwithin.2⟩

/-- A range of one box whose size is zero, which goes on to the end. -/
def openRange : List UInt8 := [0, 0, 0, 0] ++ ascii "free"

/-- The box tiles the range, and the scan refuses it. -/
theorem open_size_not_scanned :
    ¬ ∀ (bytes : List UInt8) (start stop : Nat), bytes.length < 2 ^ 64 → start ≤ stop →
      stop ≤ bytes.length →
      ((∃ boxes, scanRawBoxes bytes start stop = .ok boxes) ↔
        ∃ boxes, TiledBy (fun box => ExplicitSize bytes box ∨ OpenSize bytes stop box) bytes
          start stop boxes) := by
  intro h
  obtain ⟨boxes, hscan⟩ := (h openRange 0 8 (by decide) (by decide) (by decide)).mpr
    ⟨[⟨0, 8, 8, ascii "free"⟩], tiledBy_cons.mpr ⟨rfl, by decide,
      .inr ⟨by decide, rfl, by decide, rfl⟩, tiledBy_nil.mpr rfl⟩⟩
  have herror : scanRawBoxes openRange 0 8 = .error (invalidLayout
      "ISO-BMFF box has no explicit size and cannot be rewritten") := by rfl
  rw [herror] at hscan
  contradiction

/-- Two boxes, the second with a large size. -/
def twoBoxes : List UInt8 :=
  toBe 4 8 ++ ascii "free" ++ (toBe 4 1 ++ ascii "mdat" ++ toBe 8 17 ++ [7])

/-- Both are found. -/
theorem scanRawBoxes_iff_two :
    scanRawBoxes twoBoxes 0 25 = .ok [⟨0, 8, 8, ascii "free"⟩, ⟨8, 17, 16, ascii "mdat"⟩] :=
  ((scanRawBoxes_iff twoBoxes 0 25 (by decide) (by decide) (by decide)).2.1 _).mpr
    (tiledBy_cons.mpr ⟨rfl, by decide, .short (by decide) rfl (by decide),
      tiledBy_cons.mpr ⟨rfl, by decide, .large (by decide) (by decide) rfl (by decide),
        tiledBy_nil.mpr rfl⟩⟩)

end Kei.Heif
