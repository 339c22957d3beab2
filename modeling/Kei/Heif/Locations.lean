import Kei.Heif.Items
import Kei.Heif.Encoded

/-!
# Kei.Heif.Locations

The items of an `iloc` box as data, and the bytes that spell them.

A body is read as items just when it is their encoding, and the positions that
are kept beside the values are those of the fields in it.
-/

namespace Kei.Heif

open Bytes Fallible

/-! ## fields -/

/-- A width that a field can have. -/
def FieldWidth (w : Nat) : Prop := w = 0 ∨ w = 2 ∨ w = 4 ∨ w = 8

/-- An encoded number is read back. -/
theorem readUint_toBe {bytes rest : List UInt8} {cursor w n : Nat}
    (h : bytes.drop cursor = toBe w n ++ rest) (hw : FieldWidth w) (hn : n < 256 ^ w)
    (hlen : bytes.length < 2 ^ 64) : readUint bytes cursor w = .ok (n, cursor + w) := by
  unfold readUint
  by_cases hzero : w = 0
  · subst hzero
    rw [Nat.pow_zero, Nat.lt_one_iff] at hn
    simp [hn, pure, Except.pure]
  · have hlen' := congrArg List.length h
    rw [List.length_drop, List.length_append, length_toBe] at hlen'
    have hadd : checkedAdd cursor w = some (cursor + w) := by
      rw [checkedAdd_eq_some]
      exact ⟨by omega, rfl⟩
    have hslice : slice? bytes cursor (cursor + w) = some (toBe w n) :=
      slice?_of_drop h (by rw [← List.length_pos_iff, length_toBe]; omega) (by rw [length_toBe])
    have hw' : w = 2 ∨ w = 4 ∨ w = 8 := hw.resolve_left hzero
    rw [if_neg hzero, hadd, require_some, ok_bind, ensure_of hw', ok_bind, hslice, require_some,
      ok_bind, beNat_toBe hn]
    rfl

theorem drop_of_readUint {bytes : List UInt8} {cursor w n next : Nat}
    (h : readUint bytes cursor w = .ok (n, next)) :
    next = cursor + w ∧ FieldWidth w ∧ n < 256 ^ w ∧
      bytes.drop cursor = toBe w n ++ bytes.drop next := by
  unfold readUint at h
  split at h
  · next hzero =>
      rw [pure_eq_ok, Prod.mk.injEq] at h
      obtain ⟨rfl, rfl⟩ := h
      subst hzero
      exact ⟨rfl, .inl rfl, Nat.one_pos, rfl⟩
  · simp only [bind_eq_ok, require_eq_ok, checkedAdd_eq_some, ensure_eq_ok, pure_eq_ok,
      Prod.mk.injEq] at h
    obtain ⟨_, ⟨-, rfl⟩, -, hw, field, hfield, rfl, rfl⟩ := h
    have hlen : field.length = w := by
      obtain ⟨hle, hbound, rfl⟩ := slice?_eq_some.mp hfield
      rw [length_slice hle hbound, Nat.add_sub_cancel_left]
    have hcode := toBe_beNat field
    rw [hlen] at hcode
    refine ⟨rfl, .inr hw, hlen ▸ beNat_lt field, ?_⟩
    rw [hcode]
    exact drop_of_slice?_eq_some hfield

/-! ## entries -/

structure ExtentEntry where
  index : Nat
  offset : Nat
  length : Nat

structure ItemEntry where
  itemId : Nat
  /-- The field with the construction method, which version 0 has not. -/
  packedMethod : Nat
  dataReferenceIndex : Nat
  baseOffset : Nat
  extents : List ExtentEntry

namespace IlocWidths

/-- The widths that `parse_iloc` accepts. -/
structure Valid (w : IlocWidths) : Prop where
  version_le : w.version ≤ 2
  sizes : ∀ size ∈ [w.offsetSize, w.lengthSize, w.baseOffsetSize, w.indexSize],
    size = 0 ∨ size = 4 ∨ size = 8
  index_zero : w.version = 0 → w.indexSize = 0

variable (w : IlocWidths)

def methodSize : Nat := if w.version = 0 then 0 else 2

/-- The bytes of an item before its base offset. -/
def baseOffsetStart : Nat := w.itemIdSize + w.methodSize + 2

/-- The bytes of an item before its extents. -/
def extentsStart : Nat := w.baseOffsetStart + w.baseOffsetSize + 2

def encodeExtent (x : ExtentEntry) : List UInt8 :=
  toBe w.indexSize x.index ++ toBe w.offsetSize x.offset ++ toBe w.lengthSize x.length

def encodeExtents (xs : List ExtentEntry) : List UInt8 := xs.flatMap w.encodeExtent

def encodeItem (e : ItemEntry) : List UInt8 :=
  toBe w.itemIdSize e.itemId ++ toBe w.methodSize e.packedMethod ++
    toBe 2 e.dataReferenceIndex ++ toBe w.baseOffsetSize e.baseOffset ++
    toBe 2 e.extents.length ++ w.encodeExtents e.extents

def encodeItems (es : List ItemEntry) : List UInt8 := es.flatMap w.encodeItem

structure ExtentFits (x : ExtentEntry) : Prop where
  index : x.index < 256 ^ w.indexSize
  offset : x.offset < 256 ^ w.offsetSize
  length : x.length < 256 ^ w.lengthSize

structure ItemFits (e : ItemEntry) : Prop where
  itemId : e.itemId < 256 ^ w.itemIdSize
  packedMethod : e.packedMethod < 256 ^ w.methodSize
  dataReferenceIndex : e.dataReferenceIndex < 256 ^ 2
  baseOffset : e.baseOffset < 256 ^ w.baseOffsetSize
  count : e.extents.length < 256 ^ 2
  extents : ∀ x ∈ e.extents, w.ExtentFits x
  single : w.minExtentBytes = 0 → e.extents.length ≤ 1

/-- The extents as they are read from a position on. -/
def extentsAt : Nat → List ExtentEntry → List IlocExtent
  | _, [] => []
  | cursor, x :: xs =>
      ⟨fieldPos w.offsetSize (cursor + w.indexSize),
        fieldPos w.lengthSize (cursor + w.indexSize + w.offsetSize), x.offset, x.length⟩ ::
      extentsAt (cursor + w.minExtentBytes) xs

/-- The item as it is read at a position. -/
def itemAt (cursor : Nat) (e : ItemEntry) : IlocItem where
  itemId := e.itemId
  constructionMethod := e.packedMethod % 16
  dataReferenceIndex := e.dataReferenceIndex
  baseOffsetPos := fieldPos w.baseOffsetSize (cursor + w.baseOffsetStart)
  baseOffset := e.baseOffset
  extents := w.extentsAt (cursor + w.extentsStart) e.extents

def itemsAt : Nat → List ItemEntry → List IlocItem
  | _, [] => []
  | cursor, e :: es => w.itemAt cursor e :: itemsAt (cursor + (w.encodeItem e).length) es

@[simp] theorem length_encodeExtent (x : ExtentEntry) :
    (w.encodeExtent x).length = w.minExtentBytes := by
  simp [encodeExtent, minExtentBytes, Nat.add_assoc]

theorem length_encodeExtents (xs : List ExtentEntry) :
    (w.encodeExtents xs).length = xs.length * w.minExtentBytes := by
  induction xs with
  | nil => simp [encodeExtents]
  | cons x xs ih =>
      rw [encodeExtents, List.flatMap_cons, List.length_append, length_encodeExtent,
        List.length_cons, Nat.succ_mul, Nat.add_comm]
      exact congrArg (· + _) ih

theorem length_encodeItem (e : ItemEntry) :
    (w.encodeItem e).length = w.extentsStart + e.extents.length * w.minExtentBytes := by
  simp only [encodeItem, List.length_append, length_toBe, length_encodeExtents, extentsStart,
    baseOffsetStart]

@[simp] theorem length_extentsAt (cursor : Nat) (xs : List ExtentEntry) :
    (w.extentsAt cursor xs).length = xs.length := by
  induction xs generalizing cursor with
  | nil => rfl
  | cons x xs ih => simp [extentsAt, ih]

@[simp] theorem encodeExtents_cons (x : ExtentEntry) (xs : List ExtentEntry) :
    w.encodeExtents (x :: xs) = w.encodeExtent x ++ w.encodeExtents xs := rfl

@[simp] theorem encodeItems_cons (e : ItemEntry) (es : List ItemEntry) :
    w.encodeItems (e :: es) = w.encodeItem e ++ w.encodeItems es := rfl

@[simp] theorem encodeItems_append (es es' : List ItemEntry) :
    w.encodeItems (es ++ es') = w.encodeItems es ++ w.encodeItems es' := List.flatMap_append

namespace Valid

variable {w} (hw : w.Valid)

include hw

theorem offsetSize : FieldWidth w.offsetSize := by
  rcases hw.sizes w.offsetSize (by simp) with h | h | h <;> simp [FieldWidth, h]

theorem lengthSize : FieldWidth w.lengthSize := by
  rcases hw.sizes w.lengthSize (by simp) with h | h | h <;> simp [FieldWidth, h]

theorem baseOffsetSize : FieldWidth w.baseOffsetSize := by
  rcases hw.sizes w.baseOffsetSize (by simp) with h | h | h <;> simp [FieldWidth, h]

theorem indexSize : FieldWidth w.indexSize := by
  rcases hw.sizes w.indexSize (by simp) with h | h | h <;> simp [FieldWidth, h]

omit hw in
theorem itemIdSize : FieldWidth w.itemIdSize := by
  unfold IlocWidths.itemIdSize FieldWidth
  split <;> simp

end Valid

end IlocWidths

/-! ## reading entries -/

section reading

variable {w : IlocWidths} {body rest : List UInt8} {cursor : Nat}

theorem drop_add_of_append {part : List UInt8} {n : Nat} (h : body.drop cursor = part ++ rest)
    (hn : part.length = n) : body.drop (cursor + n) = rest := by
  rw [← List.drop_drop, h]
  exact List.drop_left' hn

theorem skipIlocIndex_toBe {n : Nat} (hw : w.Valid)
    (h : body.drop cursor = toBe w.indexSize n ++ rest) (hn : n < 256 ^ w.indexSize)
    (hlen : body.length < 2 ^ 64) : skipIlocIndex w body cursor = .ok (cursor + w.indexSize) := by
  unfold skipIlocIndex
  by_cases hv : w.version = 0
  · rw [if_neg (by simpa using hv), hw.index_zero hv]
    rfl
  · rw [if_pos hv, readUint_toBe h hw.indexSize hn hlen]
    rfl

theorem parseIlocExtent_encode {x : ExtentEntry} (hw : w.Valid) (hx : w.ExtentFits x)
    (h : body.drop cursor = w.encodeExtent x ++ rest) (hlen : body.length < 2 ^ 64) :
    parseIlocExtent w body cursor =
      .ok (⟨fieldPos w.offsetSize (cursor + w.indexSize),
        fieldPos w.lengthSize (cursor + w.indexSize + w.offsetSize), x.offset, x.length⟩,
        cursor + w.minExtentBytes) := by
  simp only [IlocWidths.encodeExtent, List.append_assoc] at h
  have hoffset := drop_add_of_append h (length_toBe _ _)
  have hlength := drop_add_of_append hoffset (length_toBe _ _)
  simp only [parseIlocExtent, skipIlocIndex_toBe hw h hx.index hlen, ok_bind,
    readUint_toBe hoffset hw.offsetSize hx.offset hlen,
    readUint_toBe hlength hw.lengthSize hx.length hlen]
  simp only [IlocWidths.minExtentBytes, Nat.add_assoc]
  rfl

theorem parseIlocExtents_encode {xs : List ExtentEntry} (hw : w.Valid)
    (hxs : ∀ x ∈ xs, w.ExtentFits x) (h : body.drop cursor = w.encodeExtents xs ++ rest)
    (hlen : body.length < 2 ^ 64) :
    parseIlocExtents w body xs.length cursor =
      .ok (w.extentsAt cursor xs, cursor + (w.encodeExtents xs).length) := by
  induction xs generalizing cursor with
  | nil => rfl
  | cons x xs ih =>
      rw [IlocWidths.encodeExtents_cons, List.append_assoc] at h
      have hrest := drop_add_of_append h (w.length_encodeExtent x)
      rw [List.length_cons, parseIlocExtents,
        parseIlocExtent_encode hw (hxs x List.mem_cons_self) h hlen, ok_bind]
      dsimp only
      rw [ih (fun x' hx' => hxs x' (List.mem_cons_of_mem _ hx')) hrest, ok_bind,
        IlocWidths.encodeExtents_cons, List.length_append, w.length_encodeExtent, ← Nat.add_assoc]
      rfl

theorem parseConstructionMethod_toBe {n : Nat} (hn : n < 256 ^ w.methodSize)
    (h : body.drop cursor = toBe w.methodSize n ++ rest) (hlen : body.length < 2 ^ 64) :
    parseConstructionMethod w body cursor = .ok (n % 16, cursor + w.methodSize) := by
  unfold parseConstructionMethod
  unfold IlocWidths.methodSize at h hn ⊢
  by_cases hv : w.version = 0
  · rw [if_pos hv] at hn ⊢
    rw [if_pos hv, Nat.lt_one_iff.mp hn]
    rfl
  · rw [if_neg hv] at h hn ⊢
    rw [if_neg hv, readUint_toBe h (by simp [FieldWidth]) hn hlen]
    rfl

/-- An encoded item is parsed back. -/
theorem parseIlocItem_encode {e : ItemEntry} {itemIds : List Nat} (hw : w.Valid)
    (he : w.ItemFits e) (h : body.drop cursor = w.encodeItem e ++ rest)
    (hlen : body.length < 2 ^ 64) (hfresh : e.itemId ∉ itemIds) :
    parseIlocItem w body itemIds cursor =
      .ok (w.itemAt cursor e, cursor + (w.encodeItem e).length) := by
  have htotal := congrArg List.length h
  rw [List.length_drop, List.length_append, w.length_encodeItem] at htotal
  simp only [IlocWidths.encodeItem, List.append_assoc] at h
  have hmethod := drop_add_of_append h (length_toBe _ _)
  have href := drop_add_of_append hmethod (length_toBe _ _)
  have hbase := drop_add_of_append href (length_toBe _ _)
  have hcount := drop_add_of_append hbase (length_toBe _ _)
  have hextents := drop_add_of_append hcount (length_toBe _ _)
  have hid : e.itemId < 2 ^ 32 := by
    have hlt := he.itemId
    unfold IlocWidths.itemIdSize at hlt
    split at hlt <;> omega
  have href' : e.dataReferenceIndex < 2 ^ 16 := he.dataReferenceIndex
  have hmax : e.extents.length ≤ if w.minExtentBytes = 0 then 1 else
      (body.length - (cursor + w.itemIdSize + w.methodSize + 2 + w.baseOffsetSize + 2)) /
        w.minExtentBytes := by
    split
    · next hzero => exact he.single hzero
    · next hpos =>
        rw [Nat.le_div_iff_mul_le (Nat.pos_of_ne_zero hpos)]
        simp only [IlocWidths.extentsStart, IlocWidths.baseOffsetStart] at htotal
        omega
  have hcursor : cursor + (w.encodeItem e).length =
      cursor + w.itemIdSize + w.methodSize + 2 + w.baseOffsetSize + 2 +
        (w.encodeExtents e.extents).length := by
    rw [w.length_encodeItem, w.length_encodeExtents]
    simp only [IlocWidths.extentsStart, IlocWidths.baseOffsetStart]
    omega
  simp only [parseIlocItem, readUint_toBe h IlocWidths.Valid.itemIdSize he.itemId hlen, ok_bind,
    ensure_of hid, ensure_of hfresh, parseConstructionMethod_toBe he.packedMethod hmethod hlen,
    readUint_toBe href (by simp [FieldWidth]) he.dataReferenceIndex hlen, ensure_of href',
    readUint_toBe hbase hw.baseOffsetSize he.baseOffset hlen,
    readUint_toBe hcount (by simp [FieldWidth]) he.count hlen, ensure_of hmax,
    parseIlocExtents_encode hw he.extents hextents hlen, hcursor]
  simp only [IlocWidths.itemAt, IlocWidths.extentsStart, IlocWidths.baseOffsetStart,
    Nat.add_assoc]
  rfl

/-- So are the items of a box, one after the other. -/
theorem parseIlocItems_encode {es : List ItemEntry} {itemIds : List Nat} (hw : w.Valid)
    (hes : ∀ e ∈ es, w.ItemFits e) (h : body.drop cursor = w.encodeItems es ++ rest)
    (hlen : body.length < 2 ^ 64) (hnodup : (itemIds ++ es.map (·.itemId)).Nodup) :
    parseIlocItems w body es.length itemIds cursor =
      .ok (w.itemsAt cursor es, cursor + (w.encodeItems es).length) := by
  induction es generalizing cursor itemIds with
  | nil => rfl
  | cons e es ih =>
      rw [IlocWidths.encodeItems_cons, List.append_assoc] at h
      have hrest := drop_add_of_append h rfl
      have hfresh : e.itemId ∉ itemIds := by
        intro hmem
        exact (List.nodup_append.mp hnodup).2.2 _ hmem _ (by simp) rfl
      rw [List.length_cons, parseIlocItems,
        parseIlocItem_encode hw (hes e List.mem_cons_self) h hlen hfresh, ok_bind]
      dsimp only
      rw [ih (fun e' he' => hes e' (List.mem_cons_of_mem _ he')) hrest (by
        rw [List.append_assoc]
        exact hnodup), ok_bind, IlocWidths.encodeItems_cons, List.length_append, ← Nat.add_assoc]
      rfl

end reading

/-! ## what is read is an encoding -/

section sound

variable {w : IlocWidths} {body : List UInt8} {cursor next : Nat}

theorem drop_of_skipIlocIndex (hw : w.Valid) (h : skipIlocIndex w body cursor = .ok next) :
    next = cursor + w.indexSize ∧ ∃ n, n < 256 ^ w.indexSize ∧
      body.drop cursor = toBe w.indexSize n ++ body.drop next := by
  unfold skipIlocIndex at h
  split at h
  · simp only [bind_eq_ok, pure_eq_ok] at h
    obtain ⟨⟨n, _⟩, hread, rfl⟩ := h
    obtain ⟨rfl, -, hn, hdrop⟩ := drop_of_readUint hread
    exact ⟨rfl, n, hn, hdrop⟩
  · next hv =>
      rw [pure_eq_ok] at h
      subst h
      rw [hw.index_zero (by simpa using hv)]
      exact ⟨rfl, 0, Nat.one_pos, rfl⟩

theorem exists_of_parseIlocExtent {x : IlocExtent} (hw : w.Valid)
    (h : parseIlocExtent w body cursor = .ok (x, next)) :
    ∃ entry : ExtentEntry, w.ExtentFits entry ∧ next = cursor + w.minExtentBytes ∧
      body.drop cursor = w.encodeExtent entry ++ body.drop next ∧
      x = ⟨fieldPos w.offsetSize (cursor + w.indexSize),
        fieldPos w.lengthSize (cursor + w.indexSize + w.offsetSize), entry.offset,
        entry.length⟩ := by
  simp only [parseIlocExtent, bind_eq_ok, pure_eq_ok, Prod.mk.injEq] at h
  obtain ⟨_, hindex, ⟨offset, _⟩, hoffset, ⟨length, _⟩, hlength, rfl, rfl⟩ := h
  obtain ⟨rfl, index, hindex, hdrop⟩ := drop_of_skipIlocIndex hw hindex
  obtain ⟨rfl, -, hoffset, hdrop'⟩ := drop_of_readUint hoffset
  obtain ⟨rfl, -, hlength, hdrop''⟩ := drop_of_readUint hlength
  refine ⟨⟨index, offset, length⟩, ⟨hindex, hoffset, hlength⟩, ?_, ?_, rfl⟩
  · simp only [IlocWidths.minExtentBytes, Nat.add_assoc]
  · rw [hdrop, hdrop', hdrop'']
    simp only [IlocWidths.encodeExtent, List.append_assoc]

theorem exists_of_parseIlocExtents {count : Nat} {xs : List IlocExtent} (hw : w.Valid)
    (h : parseIlocExtents w body count cursor = .ok (xs, next)) :
    ∃ entries : List ExtentEntry, entries.length = count ∧ (∀ x ∈ entries, w.ExtentFits x) ∧
      next = cursor + (w.encodeExtents entries).length ∧
      body.drop cursor = w.encodeExtents entries ++ body.drop next ∧
      xs = w.extentsAt cursor entries := by
  induction count generalizing cursor xs with
  | zero =>
      rw [parseIlocExtents, pure_eq_ok, Prod.mk.injEq] at h
      obtain ⟨rfl, rfl⟩ := h
      exact ⟨[], rfl, nofun, rfl, rfl, rfl⟩
  | succ count ih =>
      simp only [parseIlocExtents, bind_eq_ok, pure_eq_ok, Prod.mk.injEq] at h
      obtain ⟨⟨x, _⟩, hx, ⟨xs, _⟩, hxs, rfl, rfl⟩ := h
      obtain ⟨entry, hfits, rfl, hdrop, rfl⟩ := exists_of_parseIlocExtent hw hx
      obtain ⟨entries, rfl, hfits', hnext, hdrop', rfl⟩ := ih hxs
      refine ⟨entry :: entries, rfl, List.forall_mem_cons.mpr ⟨hfits, hfits'⟩, ?_, ?_, rfl⟩
      · rw [hnext, IlocWidths.encodeExtents_cons, List.length_append, w.length_encodeExtent,
          Nat.add_assoc]
      · rw [hdrop, hdrop', IlocWidths.encodeExtents_cons, List.append_assoc]

theorem drop_of_parseConstructionMethod {method : Nat}
    (h : parseConstructionMethod w body cursor = .ok (method, next)) :
    next = cursor + w.methodSize ∧ ∃ n, n < 256 ^ w.methodSize ∧ method = n % 16 ∧
      body.drop cursor = toBe w.methodSize n ++ body.drop next := by
  unfold parseConstructionMethod at h
  unfold IlocWidths.methodSize
  by_cases hv : w.version = 0
  · rw [if_pos hv, pure_eq_ok, Prod.mk.injEq] at h
    rw [if_pos hv]
    obtain ⟨rfl, rfl⟩ := h
    exact ⟨rfl, 0, Nat.one_pos, rfl, rfl⟩
  · rw [if_neg hv] at h
    rw [if_neg hv]
    simp only [bind_eq_ok, pure_eq_ok, Prod.mk.injEq] at h
    obtain ⟨⟨packed, _⟩, hread, rfl, rfl⟩ := h
    obtain ⟨rfl, -, hn, hdrop⟩ := drop_of_readUint hread
    exact ⟨rfl, packed, hn, rfl, hdrop⟩

/-- What is parsed as an item is the encoding of one. -/
theorem exists_of_parseIlocItem {item : IlocItem} {itemIds : List Nat} (hw : w.Valid)
    (h : parseIlocItem w body itemIds cursor = .ok (item, next)) :
    ∃ e : ItemEntry, w.ItemFits e ∧ next = cursor + (w.encodeItem e).length ∧
      body.drop cursor = w.encodeItem e ++ body.drop next ∧ item = w.itemAt cursor e ∧
      e.itemId ∉ itemIds := by
  simp only [parseIlocItem, bind_eq_ok, pure_eq_ok, ensure_eq_ok, Prod.mk.injEq] at h
  obtain ⟨⟨itemId, _⟩, hid, -, -, -, hfresh, ⟨method, _⟩, hmethod, ⟨ref, _⟩, href, -, -,
    ⟨base, _⟩, hbase, ⟨count, _⟩, hcount, -, hmax, ⟨extents, _⟩, hextents, rfl, rfl⟩ := h
  obtain ⟨rfl, -, hid, hdrop⟩ := drop_of_readUint hid
  obtain ⟨rfl, packed, hpacked, rfl, hdrop1⟩ := drop_of_parseConstructionMethod hmethod
  obtain ⟨rfl, -, href, hdrop2⟩ := drop_of_readUint href
  obtain ⟨rfl, -, hbase, hdrop3⟩ := drop_of_readUint hbase
  obtain ⟨rfl, -, hcount, hdrop4⟩ := drop_of_readUint hcount
  obtain ⟨entries, rfl, hfits, rfl, hdrop5, rfl⟩ := exists_of_parseIlocExtents hw hextents
  refine ⟨⟨itemId, packed, ref, base, entries⟩,
    ⟨hid, hpacked, href, hbase, hcount, hfits, fun hzero => ?_⟩, ?_, ?_, ?_, hfresh⟩
  · rw [if_pos hzero] at hmax
    exact hmax
  · rw [w.length_encodeItem, w.length_encodeExtents]
    simp only [IlocWidths.extentsStart, IlocWidths.baseOffsetStart]
    omega
  · rw [hdrop, hdrop1, hdrop2, hdrop3, hdrop4, hdrop5]
    simp only [IlocWidths.encodeItem, List.append_assoc]
  · simp only [IlocWidths.itemAt, IlocWidths.extentsStart, IlocWidths.baseOffsetStart,
      Nat.add_assoc]

theorem exists_of_parseIlocItems {count : Nat} {items : List IlocItem} {itemIds : List Nat}
    (hw : w.Valid) (h : parseIlocItems w body count itemIds cursor = .ok (items, next))
    (hnodup : itemIds.Nodup) :
    ∃ es : List ItemEntry, es.length = count ∧ (∀ e ∈ es, w.ItemFits e) ∧
      next = cursor + (w.encodeItems es).length ∧
      body.drop cursor = w.encodeItems es ++ body.drop next ∧ items = w.itemsAt cursor es ∧
      (itemIds ++ es.map (·.itemId)).Nodup := by
  induction count generalizing cursor items itemIds with
  | zero =>
      rw [parseIlocItems, pure_eq_ok, Prod.mk.injEq] at h
      obtain ⟨rfl, rfl⟩ := h
      exact ⟨[], rfl, nofun, rfl, rfl, rfl, by simpa using hnodup⟩
  | succ count ih =>
      simp only [parseIlocItems, bind_eq_ok, pure_eq_ok, Prod.mk.injEq] at h
      obtain ⟨⟨item, _⟩, hitem, ⟨items, _⟩, hitems, rfl, rfl⟩ := h
      obtain ⟨e, hfits, rfl, hdrop, rfl, hfresh⟩ := exists_of_parseIlocItem hw hitem
      have hnodup' : (itemIds ++ [(w.itemAt cursor e).itemId]).Nodup :=
        List.nodup_append.mpr ⟨hnodup, by simp, fun a ha b hb hab => by
          rw [hab, List.mem_singleton.mp hb] at ha
          exact hfresh ha⟩
      obtain ⟨es, rfl, hfits', hnext, hdrop', rfl, hids⟩ := ih hitems hnodup'
      refine ⟨e :: es, rfl, List.forall_mem_cons.mpr ⟨hfits, hfits'⟩, ?_, ?_, rfl, ?_⟩
      · rw [hnext, IlocWidths.encodeItems_cons, List.length_append, Nat.add_assoc]
      · rw [hdrop, hdrop', IlocWidths.encodeItems_cons, List.append_assoc]
      · rw [List.append_assoc] at hids
        exact hids

end sound

/-! ## bodies -/

/-- The width of the number of items. -/
def IlocWidths.countSize (w : IlocWidths) : Nat := if w.version = 2 then 4 else 2

/-- A body: six bytes of version, flags and widths, and the items behind their number. -/
structure IlocBody where
  head : List UInt8
  w : IlocWidths
  items : List ItemEntry
  length_head : head.length = 6
  widths : parseIlocWidths head = .ok w
  fits : ∀ e ∈ items, w.ItemFits e
  internal : ∀ e ∈ items, e.dataReferenceIndex = 0
  nodup : (items.map (·.itemId)).Nodup
  count_lt : items.length < 256 ^ w.countSize

theorem parseIlocWidths_append {head rest : List UInt8} (h : head.length = 6) :
    parseIlocWidths (head ++ rest) = parseIlocWidths head := by
  match head, h with
  | [_, _, _, _, _, _], _ => rfl

/-- Widths that are accepted are valid. -/
theorem valid_of_parseIlocWidths {head : List UInt8} {w : IlocWidths}
    (h : parseIlocWidths head = .ok w) : w.Valid := by
  simp only [parseIlocWidths, bind_eq_ok, ensure_eq_ok, pure_eq_ok] at h
  obtain ⟨-, hversion, -, hsizes, rfl⟩ := h
  exact ⟨hversion, hsizes, fun hzero => if_pos hzero⟩

namespace IlocBody

variable (b : IlocBody)

def encode : List UInt8 :=
  b.head ++ (toBe b.w.countSize b.items.length ++ b.w.encodeItems b.items)

/-- The position of the first item. -/
def itemsStart : Nat := 6 + b.w.countSize

def layout : IlocLayout where
  toIlocWidths := b.w
  countPos := 6
  countSize := b.w.countSize
  items := b.w.itemsAt b.itemsStart b.items

theorem valid : b.w.Valid := valid_of_parseIlocWidths b.widths

theorem drop_head : b.encode.drop 6 =
    toBe b.w.countSize b.items.length ++ b.w.encodeItems b.items :=
  List.drop_left' b.length_head

theorem drop_itemsStart : b.encode.drop b.itemsStart = b.w.encodeItems b.items :=
  drop_add_of_append b.drop_head (length_toBe _ _)

theorem length_encode :
    b.encode.length = b.itemsStart + (b.w.encodeItems b.items).length := by
  simp only [encode, itemsStart, List.length_append, length_toBe, b.length_head]
  omega

theorem countSize_eq : b.w.countSize = 2 ∨ b.w.countSize = 4 := by
  unfold IlocWidths.countSize
  split <;> simp

theorem parseIlocCount_encode :
    parseIlocCount b.w b.encode = .ok (6, b.w.countSize, b.items.length) := by
  have hlen := b.length_encode
  have hslice : beNat (slice b.encode 6 (6 + b.w.countSize)) = b.items.length := by
    rw [slice, b.drop_head, Nat.add_sub_cancel_left, List.take_left' (length_toBe _ _),
      beNat_toBe b.count_lt]
  unfold parseIlocCount
  unfold itemsStart at hlen
  unfold IlocWidths.countSize at hslice hlen ⊢
  split
  · next hv =>
      rw [if_pos hv] at hslice hlen
      rw [ensure_of (by omega), ok_bind, hslice]
      rfl
  · next hv =>
      rw [if_neg hv] at hslice
      rw [hslice]
      rfl

end IlocBody

theorem exists_of_mem_itemsAt {w : IlocWidths} {cursor : Nat} {es : List ItemEntry}
    {item : IlocItem} (h : item ∈ w.itemsAt cursor es) :
    ∃ pos, ∃ e ∈ es, item = w.itemAt pos e := by
  induction es generalizing cursor with
  | nil => cases h
  | cons e es ih =>
      rcases List.mem_cons.mp h with rfl | h
      · exact ⟨cursor, e, List.mem_cons_self, rfl⟩
      · obtain ⟨pos, e', he', heq⟩ := ih h
        exact ⟨pos, e', List.mem_cons_of_mem _ he', heq⟩

theorem minItemBytes_eq (w : IlocWidths) : w.minItemBytes = w.extentsStart := rfl

theorem length_mul_le_encodeItems (w : IlocWidths) (es : List ItemEntry) :
    es.length * w.minItemBytes ≤ (w.encodeItems es).length := by
  induction es with
  | nil => simp
  | cons e es ih =>
      rw [List.length_cons, Nat.succ_mul, IlocWidths.encodeItems_cons, List.length_append,
        w.length_encodeItem, minItemBytes_eq] at *
      omega

theorem mem_itemsAt_of_mem {w : IlocWidths} {cursor : Nat} {es : List ItemEntry} {e : ItemEntry}
    (h : e ∈ es) : ∃ pos, w.itemAt pos e ∈ w.itemsAt cursor es := by
  induction es generalizing cursor with
  | nil => cases h
  | cons e' es ih =>
      rcases List.mem_cons.mp h with rfl | h
      · exact ⟨cursor, List.mem_cons_self⟩
      · obtain ⟨pos, hpos⟩ := @ih (cursor + (w.encodeItem e').length) h
        exact ⟨pos, List.mem_cons_of_mem _ hpos⟩

theorem drop_of_slice {body : List UInt8} {start width : Nat} (h : start + width ≤ body.length) :
    body.drop start = toBe width (beNat (slice body start (start + width))) ++
      body.drop (start + width) := by
  have hlen : (slice body start (start + width)).length = width := by
    rw [length_slice (Nat.le_add_right _ _) h, Nat.add_sub_cancel_left]
  have hcode := toBe_beNat (slice body start (start + width))
  rw [hlen] at hcode
  rw [hcode]
  exact drop_of_slice?_eq_some (slice?_of_le (Nat.le_add_right _ _) h)

theorem beNat_slice_lt {body : List UInt8} {start width : Nat} (h : start + width ≤ body.length) :
    beNat (slice body start (start + width)) < 256 ^ width := by
  have hlt := beNat_lt (slice body start (start + width))
  rwa [length_slice (Nat.le_add_right _ _) h, Nat.add_sub_cancel_left] at hlt

theorem parseIlocCount_eq_ok {w : IlocWidths} {body : List UInt8}
    {countPos countSize count : Nat} (hlen : 8 ≤ body.length)
    (h : parseIlocCount w body = .ok (countPos, countSize, count)) :
    countPos = 6 ∧ countSize = w.countSize ∧ count < 256 ^ w.countSize ∧
      body.drop 6 = toBe w.countSize count ++ body.drop (6 + w.countSize) := by
  unfold parseIlocCount at h
  unfold IlocWidths.countSize
  by_cases hv : w.version = 2
  · rw [if_pos hv] at h
    rw [if_pos hv]
    simp only [bind_eq_ok, ensure_eq_ok, pure_eq_ok, Prod.mk.injEq] at h
    obtain ⟨-, hten, rfl, rfl, rfl⟩ := h
    exact ⟨rfl, rfl, @beNat_slice_lt _ 6 4 hten,
      @drop_of_slice _ 6 4 hten⟩
  · rw [if_neg hv] at h
    rw [if_neg hv]
    obtain ⟨rfl, rfl, rfl⟩ := h
    exact ⟨rfl, rfl, @beNat_slice_lt _ 6 2 hlen,
      @drop_of_slice _ 6 2 hlen⟩

/-- **An encoded `iloc` body is parsed back.** -/
theorem parseIlocBody_encode (b : IlocBody) (hlen : b.encode.length < 2 ^ 64) :
    parseIlocBody b.encode = .ok b.layout := by
  have hlength := b.length_encode
  have height : 8 ≤ b.encode.length := by
    rcases b.countSize_eq with h | h <;> rw [hlength, IlocBody.itemsStart, h] <;> omega
  have hwidths : parseIlocWidths b.encode = .ok b.w := by
    rw [IlocBody.encode, parseIlocWidths_append b.length_head]
    exact b.widths
  have hmin : b.items.length ≤
      (b.encode.length - (6 + b.w.countSize)) / b.w.minItemBytes := by
    rw [Nat.le_div_iff_mul_le (by simp only [IlocWidths.minItemBytes]; omega), hlength,
      IlocBody.itemsStart, Nat.add_sub_cancel_left]
    exact length_mul_le_encodeItems b.w b.items
  have hitems := @parseIlocItems_encode _ _ [] _ _ [] b.valid b.fits
    (by rw [List.append_nil]; exact b.drop_itemsStart) hlen (by simpa using b.nodup)
  have hrefs : ∀ item ∈ b.w.itemsAt b.itemsStart b.items, item.dataReferenceIndex = 0 := by
    intro item hitem
    obtain ⟨pos, e, he, rfl⟩ := exists_of_mem_itemsAt hitem
    exact b.internal e he
  simp only [parseIlocBody, ensure_of height, ok_bind, hwidths, b.parseIlocCount_encode,
    ensure_of hmin]
  rw [show 6 + b.w.countSize = b.itemsStart from rfl, hitems, ok_bind]
  rw [ensure_of hlength.symm, ok_bind, ensure_of hrefs]
  rfl

/-- **What is parsed as an `iloc` body is the encoding of one.** -/
theorem exists_of_parseIlocBody {body : List UInt8} {layout : IlocLayout}
    (h : parseIlocBody body = .ok layout) :
    ∃ b : IlocBody, b.encode = body ∧ b.layout = layout := by
  simp only [parseIlocBody, bind_eq_ok, ensure_eq_ok, pure_eq_ok] at h
  obtain ⟨-, height, w, hwidths, ⟨countPos, countSize, count⟩, hcount, -, -, ⟨items, next⟩, hitems,
    -, hend, -, hrefs, rfl⟩ := h
  have hhead : (body.take 6).length = 6 := by rw [List.length_take]; omega
  have hwidths' : parseIlocWidths (body.take 6) = .ok w := by
    rw [← @parseIlocWidths_append _ (body.drop 6) hhead, List.take_append_drop]
    exact hwidths
  obtain ⟨rfl, rfl, hlt, hdrop⟩ := parseIlocCount_eq_ok height hcount
  obtain ⟨es, rfl, hfits, hnext, hdrop', rfl, hnodup⟩ :=
    exists_of_parseIlocItems (valid_of_parseIlocWidths hwidths) hitems List.nodup_nil
  have hinternal : ∀ e ∈ es, e.dataReferenceIndex = 0 := by
    intro e he
    obtain ⟨pos, hpos⟩ := @mem_itemsAt_of_mem w (6 + w.countSize) _ _ he
    exact hrefs _ hpos
  refine ⟨⟨body.take 6, w, es, hhead, hwidths', hfits, hinternal, hnodup, hlt⟩, ?_, rfl⟩
  show body.take 6 ++ (toBe w.countSize es.length ++ w.encodeItems es) = body
  have htail : body.drop next = [] := by
    rw [show next = body.length from hend, List.drop_length]
  rw [htail, List.append_nil] at hdrop'
  rw [← hdrop', ← hdrop, List.take_append_drop]

end Kei.Heif
