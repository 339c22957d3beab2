import Kei.Heif.Rewrite
import Kei.Heif.Locations

/-!
# Kei.Heif.Relocations

What the rewriter makes of the items of an `iloc` box.

A number that is written to the position of a field changes that field of the
data and nothing else, so that the new bodies are encodings again: of the
items moved and one more, or of the items with one pointed elsewhere.
-/

namespace Kei.Heif

open Bytes Fallible

/-! ## writing fields -/

theorem writeUint_toBe {pre rest bytes : List UInt8} {w n n' : Nat}
    (h : writeUint (pre ++ (toBe w n ++ rest)) pre.length w n' = .ok bytes) (hn' : n' < 2 ^ 64) :
    bytes = pre ++ (toBe w n' ++ rest) ∧ n' < 256 ^ w := by
  unfold writeUint at h
  split at h
  · next hzero =>
      subst hzero
      split at h
      · next hn =>
          rw [pure_eq_ok] at h
          rw [hn]
          exact ⟨h.symm, Nat.one_pos⟩
      · cases h
  · simp only [bind_eq_ok, require_eq_ok, checkedAdd_eq_some, ensure_eq_ok, pure_eq_ok] at h
    obtain ⟨_, -, -, -, field, hfield, rfl⟩ := h
    have henc : field = toBe w n' ∧ n' < 256 ^ w := by
      unfold encodeUint at hfield
      split at hfield
      · simp only [bind_eq_ok, ensure_eq_ok, pure_eq_ok] at hfield
        obtain ⟨-, hlt, rfl⟩ := hfield
        exact ⟨rfl, hlt⟩
      · simp only [bind_eq_ok, ensure_eq_ok, pure_eq_ok] at hfield
        obtain ⟨-, hlt, rfl⟩ := hfield
        exact ⟨rfl, hlt⟩
      · rw [pure_eq_ok] at hfield
        exact ⟨hfield.symm, hn'⟩
      · cases hfield
    refine ⟨?_, henc.2⟩
    rw [henc.1, ← List.append_assoc,
      overwrite_append_mid pre (toBe w n) (toBe w n') rest rfl (by simp),
      List.append_assoc]

theorem writeUintVec_eq_ok {w n : Nat} {bytes : List UInt8} (h : writeUintVec w n = .ok bytes)
    (hn : n < 2 ^ 64) : bytes = toBe w n ∧ n < 256 ^ w ∧ FieldWidth w := by
  unfold writeUintVec at h
  split at h
  · next hzero =>
      subst hzero
      split at h
      · next hn =>
          rw [pure_eq_ok] at h
          rw [hn]
          exact ⟨h.symm, Nat.one_pos, .inl rfl⟩
      · cases h
  · unfold encodeUint at h
    split at h
    · simp only [bind_eq_ok, ensure_eq_ok, pure_eq_ok] at h
      obtain ⟨-, hlt, rfl⟩ := h
      exact ⟨rfl, hlt, .inr (.inl rfl)⟩
    · simp only [bind_eq_ok, ensure_eq_ok, pure_eq_ok] at h
      obtain ⟨-, hlt, rfl⟩ := h
      exact ⟨rfl, hlt, .inr (.inr (.inl rfl))⟩
    · rw [pure_eq_ok] at h
      exact ⟨h.symm, hn, .inr (.inr (.inr rfl))⟩
    · cases h

/-! ## writing to a body -/

theorem fieldPos_eq_none {width cursor : Nat} : fieldPos width cursor = none ↔ width = 0 := by
  unfold fieldPos
  split <;> simp [*]

theorem fieldPos_of_ne {width : Nat} (h : width ≠ 0) (cursor : Nat) :
    fieldPos width cursor = some cursor := if_neg h

/-- The extent, as far as it is moved. -/
def ExtentEntry.shift (delta : Nat) (isShifted : Nat → Bool) (x : ExtentEntry) : ExtentEntry :=
  if isShifted x.offset then { x with offset := x.offset + delta } else x

namespace ItemEntry

/-- An extent at an offset is behind the boundary. -/
def isShifted (boundary : Nat) (e : ItemEntry) (offset : Nat) : Bool :=
  extentAtOrPastBoundary e.baseOffset offset boundary

def anyShifted (boundary : Nat) (e : ItemEntry) : Bool :=
  e.extents.any (fun x => e.isShifted boundary x.offset)

def allShifted (boundary : Nat) (e : ItemEntry) : Bool :=
  e.extents.all (fun x => e.isShifted boundary x.offset)

/-- Move what an item has behind the boundary, in its base offset if that has bytes and all of
its extents are there. -/
def shift (w : IlocWidths) (delta boundary : Nat) (e : ItemEntry) : ItemEntry :=
  if e.packedMethod % 16 ≠ 0 ∨ e.anyShifted boundary = false then e
  else if e.allShifted boundary = true ∧ w.baseOffsetSize ≠ 0 then
    { e with baseOffset := e.baseOffset + delta }
  else { e with extents := e.extents.map (ExtentEntry.shift delta (e.isShifted boundary)) }

end ItemEntry

section writing

variable {w : IlocWidths} {pre rest bytes : List UInt8}

theorem shiftExtents_encode {delta : Nat} {isShifted : Nat → Bool} {xs : List ExtentEntry}
    (hoffset : w.offsetSize ≠ 0) (hfits : ∀ x ∈ xs, w.ExtentFits x)
    (h : shiftExtents w.offsetSize delta (pre ++ (w.encodeExtents xs ++ rest))
      ((w.extentsAt pre.length xs).filter (fun x => isShifted x.offset)) = .ok bytes) :
    bytes = pre ++ (w.encodeExtents (xs.map (ExtentEntry.shift delta isShifted)) ++ rest) ∧
      ∀ x ∈ xs.map (ExtentEntry.shift delta isShifted), w.ExtentFits x := by
  induction xs generalizing pre with
  | nil =>
      rw [shiftExtents, IlocWidths.extentsAt, List.filter_nil, List.foldlM_nil, pure_eq_ok] at h
      exact ⟨h.symm, by simp⟩
  | cons x xs ih =>
      have hx := hfits x List.mem_cons_self
      have hxs := fun x' hx' => hfits x' (List.mem_cons_of_mem _ hx')
      have hlen (x' : ExtentEntry) : pre.length + w.minExtentBytes =
          (pre ++ w.encodeExtent x').length := by
        rw [List.length_append, w.length_encodeExtent]
      by_cases hsel : isShifted x.offset = true
      · have hshift : ExtentEntry.shift delta isShifted x =
            { x with offset := x.offset + delta } := if_pos hsel
        simp only [shiftExtents, IlocWidths.extentsAt, List.filter_cons, hsel, if_true,
          foldlM_cons_eq_ok, bind_eq_ok, require_eq_ok, checkedAdd_eq_some,
          fieldPos_of_ne hoffset] at h
        obtain ⟨body, ⟨_, ⟨hsum, rfl⟩, hwrite⟩, hrest⟩ := h
        have hparts : pre ++ (w.encodeExtents (x :: xs) ++ rest) =
            (pre ++ toBe w.indexSize x.index) ++ (toBe w.offsetSize x.offset ++
              (toBe w.lengthSize x.length ++ (w.encodeExtents xs ++ rest))) := by
          simp only [IlocWidths.encodeExtents_cons, IlocWidths.encodeExtent, List.append_assoc]
        rw [hparts, show pre.length + w.indexSize = (pre ++ toBe w.indexSize x.index).length by
          simp] at hwrite
        obtain ⟨rfl, hlt⟩ := writeUint_toBe hwrite hsum
        have hparts' : (pre ++ toBe w.indexSize x.index) ++ (toBe w.offsetSize (x.offset + delta) ++
            (toBe w.lengthSize x.length ++ (w.encodeExtents xs ++ rest))) =
            (pre ++ w.encodeExtent { x with offset := x.offset + delta }) ++
              (w.encodeExtents xs ++ rest) := by
          simp only [IlocWidths.encodeExtent, List.append_assoc]
        rw [hparts', hlen { x with offset := x.offset + delta }] at hrest
        obtain ⟨rfl, hfits'⟩ := ih hxs hrest
        rw [List.map_cons, hshift]
        refine ⟨?_, List.forall_mem_cons.mpr ⟨⟨hx.index, hlt, hx.length⟩, hfits'⟩⟩
        rw [IlocWidths.encodeExtents_cons, List.append_assoc, List.append_assoc]
      · have hshift : ExtentEntry.shift delta isShifted x = x := if_neg hsel
        rw [IlocWidths.extentsAt, List.filter_cons, if_neg hsel, hlen x,
          IlocWidths.encodeExtents_cons, List.append_assoc, ← List.append_assoc pre] at h
        obtain ⟨rfl, hfits'⟩ := ih hxs h
        rw [List.map_cons, hshift]
        refine ⟨?_, List.forall_mem_cons.mpr ⟨hx, hfits'⟩⟩
        rw [IlocWidths.encodeExtents_cons, List.append_assoc, List.append_assoc]

theorem offset_mem_extentsAt {cursor : Nat} {xs : List ExtentEntry} (f : Nat → Bool) :
    ((w.extentsAt cursor xs).any fun x => f x.offset) = xs.any (fun x => f x.offset) ∧
      ((w.extentsAt cursor xs).all fun x => f x.offset) = xs.all (fun x => f x.offset) := by
  induction xs generalizing cursor with
  | nil => exact ⟨rfl, rfl⟩
  | cons x xs ih =>
      simp [IlocWidths.extentsAt, List.any_cons, List.all_cons, ih]

/-- Extents without bytes for their offset are told from those with by the width. -/
theorem offsetPos_any_isNone {cursor : Nat} {xs : List ExtentEntry} (hne : xs ≠ [])
    (h : ¬ ((w.extentsAt cursor xs).any fun x => x.offsetPos.isNone) = true) :
    w.offsetSize ≠ 0 := by
  intro hzero
  obtain ⟨x, xs, rfl⟩ := List.exists_cons_of_ne_nil hne
  refine h ?_
  simp [IlocWidths.extentsAt, fieldPos, hzero]

theorem encodeItem_split (w : IlocWidths) (e : ItemEntry) (rest : List UInt8) :
    w.encodeItem e ++ rest =
      (toBe w.itemIdSize e.itemId ++ toBe w.methodSize e.packedMethod ++
        toBe 2 e.dataReferenceIndex) ++
      (toBe w.baseOffsetSize e.baseOffset ++
        (toBe 2 e.extents.length ++ (w.encodeExtents e.extents ++ rest))) := by
  simp only [IlocWidths.encodeItem, List.append_assoc]

theorem shiftBase_encode {e : ItemEntry} {base : Nat} (he : w.ItemFits e)
    (h : writeUint (pre ++ (w.encodeItem e ++ rest)) (pre.length + w.baseOffsetStart)
      w.baseOffsetSize base = .ok bytes) (hbase : base < 2 ^ 64) :
    bytes = pre ++ (w.encodeItem { e with baseOffset := base } ++ rest) ∧
      w.ItemFits { e with baseOffset := base } := by
  have hpos : pre.length + w.baseOffsetStart =
      (pre ++ (toBe w.itemIdSize e.itemId ++ toBe w.methodSize e.packedMethod ++
        toBe 2 e.dataReferenceIndex)).length := by
    simp [IlocWidths.baseOffsetStart, Nat.add_assoc]
  rw [encodeItem_split, ← List.append_assoc, hpos] at h
  obtain ⟨rfl, hlt⟩ := writeUint_toBe h hbase
  refine ⟨?_, { he with baseOffset := hlt }⟩
  rw [encodeItem_split, List.append_assoc]

theorem shiftOffsets_encode {e : ItemEntry} {delta : Nat} {isShifted : Nat → Bool}
    (hoffset : w.offsetSize ≠ 0) (he : w.ItemFits e)
    (h : shiftExtents w.offsetSize delta (pre ++ (w.encodeItem e ++ rest))
      ((w.extentsAt (pre.length + w.extentsStart) e.extents).filter
        (fun x => isShifted x.offset)) = .ok bytes) :
    bytes = pre ++ (w.encodeItem
        { e with extents := e.extents.map (ExtentEntry.shift delta isShifted) } ++ rest) ∧
      w.ItemFits { e with extents := e.extents.map (ExtentEntry.shift delta isShifted) } := by
  have hparts (xs : List ExtentEntry) (hxs : xs.length = e.extents.length) :
      pre ++ (w.encodeItem { e with extents := xs } ++ rest) =
        (pre ++ (toBe w.itemIdSize e.itemId ++ toBe w.methodSize e.packedMethod ++
          toBe 2 e.dataReferenceIndex ++ toBe w.baseOffsetSize e.baseOffset ++
          toBe 2 e.extents.length)) ++ (w.encodeExtents xs ++ rest) := by
    simp only [IlocWidths.encodeItem, hxs, List.append_assoc]
  have hpos : pre.length + w.extentsStart =
      (pre ++ (toBe w.itemIdSize e.itemId ++ toBe w.methodSize e.packedMethod ++
        toBe 2 e.dataReferenceIndex ++ toBe w.baseOffsetSize e.baseOffset ++
        toBe 2 e.extents.length)).length := by
    simp [IlocWidths.extentsStart, IlocWidths.baseOffsetStart, Nat.add_assoc]
  rw [show e = { e with extents := e.extents } from rfl, hparts e.extents rfl, hpos] at h
  obtain ⟨rfl, hfits⟩ := shiftExtents_encode hoffset he.extents h
  refine ⟨(hparts _ (List.length_map _)).symm, { he with
    count := by rw [List.length_map]; exact he.count
    extents := hfits
    single := fun hzero => by rw [List.length_map]; exact he.single hzero }⟩

/-- Moving an item writes nothing, its base offset or the offsets of what is moved. -/
theorem shiftItem_cases {delta boundary : Nat} {body : List UInt8} {item : IlocItem}
    (h : shiftItem w delta boundary body item = .ok bytes) :
    let isShifted := fun x : IlocExtent =>
      extentAtOrPastBoundary item.baseOffset x.offset boundary
    (bytes = body ∧ (item.constructionMethod ≠ 0 ∨ item.extents.any isShifted = false)) ∨
    (item.constructionMethod = 0 ∧ item.extents.any isShifted = true ∧
      item.extents.all isShifted = true ∧ ∃ pos, item.baseOffsetPos = some pos ∧
        item.baseOffset + delta < 2 ^ 64 ∧
        writeUint body pos w.baseOffsetSize (item.baseOffset + delta) = .ok bytes) ∨
    (item.constructionMethod = 0 ∧ item.extents.any isShifted = true ∧
      (item.extents.all isShifted = false ∨ item.baseOffsetPos = none) ∧
      ¬ (item.extents.any fun x => x.offsetPos.isNone) = true ∧
      shiftExtents w.offsetSize delta body (item.extents.filter isShifted) = .ok bytes) := by
  intro isShifted
  unfold shiftItem at h
  by_cases hmethod : item.constructionMethod = 0
  · rw [if_neg (not_not_intro hmethod)] at h
    by_cases hsome : item.extents.any isShifted = true
    · rw [if_pos hsome] at h
      by_cases hevery : item.extents.all isShifted = true
      · rw [if_pos hevery] at h
        split at h
        · next pos hpos =>
            simp only [bind_eq_ok, require_eq_ok, checkedAdd_eq_some] at h
            obtain ⟨_, ⟨hsum, rfl⟩, hwrite⟩ := h
            exact .inr (.inl ⟨hmethod, hsome, hevery, pos, hpos, hsum, hwrite⟩)
        · next hpos =>
            split at h
            · cases h
            · next hnone =>
                have hfilter : item.extents.filter isShifted = item.extents :=
                  List.filter_eq_self.mpr (List.all_eq_true.mp hevery)
                rw [← hfilter] at h
                exact .inr (.inr ⟨hmethod, hsome, .inr hpos, hnone, h⟩)
      · rw [if_neg hevery] at h
        split at h
        · cases h
        · next hnone =>
            exact .inr (.inr ⟨hmethod, hsome, .inl (by simpa using hevery), hnone, h⟩)
    · rw [if_neg hsome, pure_eq_ok] at h
      exact .inl ⟨h.symm, .inr (by simpa using hsome)⟩
  · rw [if_pos hmethod, pure_eq_ok] at h
    exact .inl ⟨h.symm, .inl hmethod⟩

/-- **The bytes of a moved item** are those of the item, moved. -/
theorem shiftItem_encode {e : ItemEntry} {delta boundary : Nat} (he : w.ItemFits e)
    (h : shiftItem w delta boundary (pre ++ (w.encodeItem e ++ rest)) (w.itemAt pre.length e) =
      .ok bytes) :
    bytes = pre ++ (w.encodeItem (e.shift w delta boundary) ++ rest) ∧
      w.ItemFits (e.shift w delta boundary) := by
  obtain ⟨hany, hall⟩ := @offset_mem_extentsAt w (pre.length + w.extentsStart)
    e.extents (e.isShifted boundary)
  rcases shiftItem_cases h with ⟨rfl, hkept⟩ | ⟨hmethod, hsome, hevery, pos, hpos, hsum, hwrite⟩ |
    ⟨hmethod, hsome, hnot, hnone, hwrite⟩
  · have hshift : e.shift w delta boundary = e := if_pos (hkept.imp_right hany.symm.trans)
    rw [hshift]
    exact ⟨rfl, he⟩
  · have hbase : w.baseOffsetSize ≠ 0 := by
      intro hzero
      rw [IlocWidths.itemAt, hzero] at hpos
      cases hpos
    have hmoved : ¬ (e.packedMethod % 16 ≠ 0 ∨ e.anyShifted boundary = false) := by
      rintro (hne | hfalse)
      · exact hne hmethod
      · exact Bool.false_ne_true (hfalse.symm.trans (hany.symm.trans hsome))
    have hshift : e.shift w delta boundary = { e with baseOffset := e.baseOffset + delta } := by
      rw [ItemEntry.shift, if_neg hmoved, if_pos ⟨hall.symm.trans hevery, hbase⟩]
    rw [IlocWidths.itemAt, fieldPos_of_ne hbase, Option.some.injEq] at hpos
    rw [← hpos] at hwrite
    rw [hshift]
    exact shiftBase_encode he hwrite hsum
  · have hmoved : ¬ (e.packedMethod % 16 ≠ 0 ∨ e.anyShifted boundary = false) := by
      rintro (hne | hfalse)
      · exact hne hmethod
      · exact Bool.false_ne_true (hfalse.symm.trans (hany.symm.trans hsome))
    have hne : e.extents ≠ [] := by
      intro heq
      exact hmoved (.inr (by rw [ItemEntry.anyShifted, heq]; rfl))
    have hsplit : ¬ (e.allShifted boundary = true ∧ w.baseOffsetSize ≠ 0) := by
      rintro ⟨hevery, hbase⟩
      rcases hnot with hnot | hpos
      · exact Bool.false_ne_true ((hall.symm.trans hnot).symm.trans hevery)
      · exact hbase (fieldPos_eq_none.mp hpos)
    have hshift : e.shift w delta boundary =
        { e with extents := e.extents.map (ExtentEntry.shift delta (e.isShifted boundary)) } := by
      rw [ItemEntry.shift, if_neg hmoved, if_neg hsplit]
    rw [hshift]
    exact shiftOffsets_encode (offsetPos_any_isNone hne hnone) he hwrite

@[simp] theorem length_extents_shift (e : ItemEntry) (delta boundary : Nat) :
    (e.shift w delta boundary).extents.length = e.extents.length := by
  unfold ItemEntry.shift
  split
  · rfl
  · split
    · rfl
    · exact List.length_map _

theorem length_encodeItem_shift (e : ItemEntry) (delta boundary : Nat) :
    (w.encodeItem (e.shift w delta boundary)).length = (w.encodeItem e).length := by
  rw [w.length_encodeItem, w.length_encodeItem, length_extents_shift]

/-- So it is with all items of the box. -/
theorem shiftItems_encode {es : List ItemEntry} {delta boundary : Nat}
    (hes : ∀ e ∈ es, w.ItemFits e)
    (h : (w.itemsAt pre.length es).foldlM (shiftItem w delta boundary)
      (pre ++ (w.encodeItems es ++ rest)) = .ok bytes) :
    bytes = pre ++ (w.encodeItems (es.map (ItemEntry.shift w delta boundary)) ++ rest) ∧
      ∀ e ∈ es.map (ItemEntry.shift w delta boundary), w.ItemFits e := by
  induction es generalizing pre with
  | nil =>
      rw [IlocWidths.itemsAt, List.foldlM_nil, pure_eq_ok] at h
      exact ⟨h.symm, nofun⟩
  | cons e es ih =>
      rw [IlocWidths.itemsAt, foldlM_cons_eq_ok] at h
      obtain ⟨body, hfirst, hrest⟩ := h
      rw [IlocWidths.encodeItems_cons, List.append_assoc] at hfirst
      obtain ⟨rfl, hfits⟩ := shiftItem_encode (hes e List.mem_cons_self) hfirst
      rw [← List.append_assoc, ← length_encodeItem_shift e delta boundary, ← List.length_append]
        at hrest
      obtain ⟨rfl, hfits'⟩ := ih (fun e' he' => hes e' (List.mem_cons_of_mem _ he')) hrest
      refine ⟨?_, ?_⟩
      · rw [List.map_cons, IlocWidths.encodeItems_cons, List.append_assoc, List.append_assoc]
      · rw [List.map_cons]
        exact List.forall_mem_cons.mpr ⟨hfits, hfits'⟩

theorem countOneMore_toBe {width count : Nat} {overflows : String} (hwidth : FieldWidth width)
    (hcount : count < 256 ^ width) (hlen : (pre ++ (toBe width count ++ rest)).length < 2 ^ 64)
    (h : countOneMore (pre ++ (toBe width count ++ rest)) pre.length width overflows =
      .ok bytes) :
    bytes = pre ++ (toBe width (count + 1) ++ rest) ∧ count + 1 < 256 ^ width := by
  have hread : readUint (pre ++ (toBe width count ++ rest)) pre.length width =
      .ok (count, pre.length + width) :=
    readUint_toBe List.drop_left hwidth hcount hlen
  simp only [countOneMore, hread, ok_bind, bind_eq_ok, require_eq_ok, checkedAdd_eq_some] at h
  obtain ⟨_, ⟨hsum, rfl⟩, hwrite⟩ := h
  exact writeUint_toBe hwrite hsum

/-- The item of a new packet. -/
def newItem (w : IlocWidths) (itemId dataOffset length : Nat) : ItemEntry where
  itemId := itemId
  packedMethod := 0
  dataReferenceIndex := 0
  baseOffset := if w.offsetSize ≠ 0 then 0 else dataOffset
  extents := [⟨0, if w.offsetSize ≠ 0 then dataOffset else 0, length⟩]

theorem writeVersionedUint_eq_ok {width : Nat} {field : List UInt8}
    (h : writeVersionedUint w width 0 = .ok field) (hzero : w.version = 0 → width = 0) :
    field = toBe width 0 := by
  unfold writeVersionedUint at h
  split at h
  · exact (writeUintVec_eq_ok h (by decide)).1
  · next hv =>
      rw [pure_eq_ok] at h
      rw [hzero (by simpa using hv)]
      exact h.symm

theorem writeMethod_eq_ok {field : List UInt8} (h : writeVersionedUint w 2 0 = .ok field) :
    field = toBe w.methodSize 0 := by
  unfold writeVersionedUint at h
  unfold IlocWidths.methodSize
  split at h
  · next hv =>
      rw [if_neg hv]
      exact (writeUintVec_eq_ok h (by decide)).1
  · next hv =>
      rw [pure_eq_ok] at h
      rw [if_pos (by simpa using hv)]
      exact h.symm

/-- The entry that is written is that of the new item. -/
theorem makeNewIlocEntry_eq_ok {itemId dataOffset length : Nat} {entry : List UInt8}
    (hw : w.Valid) (hid : itemId < 2 ^ 64) (hoffset : dataOffset < 2 ^ 64)
    (hlength : length < 2 ^ 64) (h : makeNewIlocEntry w itemId dataOffset length = .ok entry) :
    entry = w.encodeItem (newItem w itemId dataOffset length) ∧
      w.ItemFits (newItem w itemId dataOffset length) := by
  simp only [makeNewIlocEntry, bind_eq_ok, pure_eq_ok] at h
  obtain ⟨_, hid', _, hmethod, _, href, ⟨base, offset⟩, hsplit, _, hbase', _, hcount, _, hindex, _,
    hoffset', _, hlength', rfl⟩ := h
  have hvalues : base = (if w.offsetSize ≠ 0 then 0 else dataOffset) ∧
      offset = if w.offsetSize ≠ 0 then dataOffset else 0 := by
    unfold splitDataOffset at hsplit
    split at hsplit
    · next hne =>
        rw [pure_eq_ok, Prod.mk.injEq] at hsplit
        rw [if_pos hne, if_pos hne]
        exact ⟨hsplit.1.symm, hsplit.2.symm⟩
    · next hne =>
        rw [if_neg hne, if_neg hne]
        split at hsplit
        · rw [pure_eq_ok, Prod.mk.injEq] at hsplit
          exact ⟨hsplit.1.symm, hsplit.2.symm⟩
        · cases hsplit
  obtain ⟨rfl, rfl⟩ := hvalues
  obtain ⟨rfl, hidlt, -⟩ := writeUintVec_eq_ok hid' hid
  obtain ⟨rfl, -, -⟩ := writeUintVec_eq_ok href (by decide)
  obtain ⟨rfl, hbaselt, -⟩ := writeUintVec_eq_ok hbase' (by split <;> omega)
  obtain ⟨rfl, -, -⟩ := writeUintVec_eq_ok hcount (by decide)
  obtain ⟨rfl, hoffsetlt, -⟩ := writeUintVec_eq_ok hoffset' (by split <;> omega)
  obtain ⟨rfl, hlengthlt, -⟩ := writeUintVec_eq_ok hlength' hlength
  obtain rfl := writeMethod_eq_ok hmethod
  obtain rfl := writeVersionedUint_eq_ok hindex hw.index_zero
  refine ⟨?_, hidlt, Nat.pow_pos (by decide), Nat.pow_pos (by decide), hbaselt,
    Nat.one_lt_pow (by decide) (by decide), ?_, fun _ => Nat.le_refl 1⟩
  · simp [newItem, IlocWidths.encodeItem, IlocWidths.encodeExtents, IlocWidths.encodeExtent]
  · intro x hx
    rw [newItem, List.mem_singleton] at hx
    subst hx
    exact ⟨Nat.pow_pos (by decide), hoffsetlt, hlengthlt⟩

end writing

/-! ## new bodies -/

namespace IlocBody

variable (b : IlocBody)

theorem length_itemsStart : (b.head ++ toBe b.w.countSize b.items.length).length =
    b.itemsStart := by
  rw [List.length_append, b.length_head, length_toBe, itemsStart]

end IlocBody

@[simp] theorem shift_itemId (w : IlocWidths) (delta boundary : Nat) (e : ItemEntry) :
    (e.shift w delta boundary).itemId = e.itemId := by
  unfold ItemEntry.shift
  split
  · rfl
  · split <;> rfl

@[simp] theorem shift_dataReferenceIndex (w : IlocWidths) (delta boundary : Nat) (e : ItemEntry) :
    (e.shift w delta boundary).dataReferenceIndex = e.dataReferenceIndex := by
  unfold ItemEntry.shift
  split
  · rfl
  · split <;> rfl

@[simp] theorem shift_packedMethod (w : IlocWidths) (delta boundary : Nat) (e : ItemEntry) :
    (e.shift w delta boundary).packedMethod = e.packedMethod := by
  unfold ItemEntry.shift
  split
  · rfl
  · split <;> rfl

theorem length_encodeItems_shift (w : IlocWidths) (es : List ItemEntry) (delta boundary : Nat) :
    (w.encodeItems (es.map (ItemEntry.shift w delta boundary))).length =
      (w.encodeItems es).length := by
  induction es with
  | nil => rfl
  | cons e es ih =>
      rw [List.map_cons, IlocWidths.encodeItems_cons, IlocWidths.encodeItems_cons,
        List.length_append, List.length_append, length_encodeItem_shift, ih]

/-- After an insertion the items are moved and there is one more. -/
theorem appendIlocEntry_eq_ok {bytes newIloc : List UInt8} {iloc : RawBox} {b : IlocBody}
    {itemId dataOffset length delta boundary : Nat} (hbody : bodyOf bytes iloc = b.encode)
    (hlen : b.encode.length < 2 ^ 64) (hid : itemId < 2 ^ 64) (hoffset : dataOffset < 2 ^ 64)
    (hlength : length < 2 ^ 64) (hfresh : itemId ∉ b.items.map (·.itemId))
    (h : appendIlocEntry bytes iloc b.layout itemId dataOffset length delta boundary =
      .ok newIloc) :
    ∃ b' : IlocBody, b'.w = b.w ∧
      b'.items = b.items.map (ItemEntry.shift b.w delta boundary) ++
        [newItem b.w itemId dataOffset length] ∧
      boxWithBody iloc.kind b'.encode = .ok newIloc := by
  simp only [appendIlocEntry, bind_eq_ok, hbody] at h
  obtain ⟨body, hshift, body', hcount, entry, hentry, hbox⟩ := h
  have hstart : b.layout.items = b.w.itemsAt
      (b.head ++ toBe b.w.countSize b.items.length).length b.items := by
    rw [b.length_itemsStart]
    rfl
  have hparts : b.encode = (b.head ++ toBe b.w.countSize b.items.length) ++
      (b.w.encodeItems b.items ++ []) := by
    rw [IlocBody.encode, List.append_nil, List.append_assoc]
  rw [hstart, hparts] at hshift
  obtain ⟨rfl, hfits⟩ := shiftItems_encode b.fits hshift
  have hitems := length_encodeItems_shift b.w b.items delta boundary
  have hwidth : FieldWidth b.w.countSize := by
    rcases b.countSize_eq with hsize | hsize <;> simp [FieldWidth, hsize]
  rw [List.append_assoc, List.append_nil] at hcount
  rw [show b.layout.countPos = b.head.length from b.length_head.symm] at hcount
  obtain ⟨rfl, hlt⟩ := countOneMore_toBe hwidth b.count_lt (by
    have htotal := b.length_encode
    simp only [List.length_append, length_toBe, b.length_head, hitems]
    rw [htotal, IlocBody.itemsStart] at hlen
    omega) hcount
  obtain ⟨rfl, hnew⟩ := makeNewIlocEntry_eq_ok b.valid hid hoffset hlength hentry
  refine ⟨{
    head := b.head
    w := b.w
    items := b.items.map (ItemEntry.shift b.w delta boundary) ++
      [newItem b.w itemId dataOffset length]
    length_head := b.length_head
    widths := b.widths
    fits := List.forall_mem_append.mpr ⟨hfits, by simpa using hnew⟩
    internal := List.forall_mem_append.mpr ⟨by simpa using b.internal, by simp [newItem]⟩
    nodup := by
      rw [List.map_append, List.map_map]
      refine List.nodup_append.mpr ⟨?_, by simp, fun i hi j hj hij => hfresh ?_⟩
      · simpa [Function.comp_def] using b.nodup
      · simp only [newItem, List.map_cons, List.map_nil, List.mem_singleton] at hj
        simpa [Function.comp_def, hij, hj] using hi
    count_lt := by simpa using hlt }, rfl, rfl, ?_⟩
  rw [← hbox, IlocBody.encode]
  simp [IlocWidths.encodeItems, List.append_assoc]

theorem itemsAt_append (w : IlocWidths) (cursor : Nat) (es es' : List ItemEntry) :
    w.itemsAt cursor (es ++ es') =
      w.itemsAt cursor es ++ w.itemsAt (cursor + (w.encodeItems es).length) es' := by
  induction es generalizing cursor with
  | nil => rfl
  | cons e es ih =>
      rw [List.cons_append, IlocWidths.itemsAt, ih, IlocWidths.encodeItems_cons,
        List.length_append, Nat.add_assoc]
      rfl

theorem map_itemId_itemsAt (w : IlocWidths) (cursor : Nat) (es : List ItemEntry) :
    (w.itemsAt cursor es).map (·.itemId) = es.map (·.itemId) := by
  induction es generalizing cursor with
  | nil => rfl
  | cons e es ih =>
      rw [IlocWidths.itemsAt, List.map_cons, ih]
      rfl

/-- What is found by an id is an item with it. -/
theorem exists_of_find?_itemsAt {w : IlocWidths} {cursor itemId : Nat} {es : List ItemEntry}
    {item : IlocItem} (h : (w.itemsAt cursor es).find? (fun item => item.itemId = itemId) =
      some item) :
    ∃ before e after, es = before ++ e :: after ∧ e.itemId = itemId ∧
      item = w.itemAt (cursor + (w.encodeItems before).length) e := by
  induction es generalizing cursor with
  | nil => cases h
  | cons e es ih =>
      rw [IlocWidths.itemsAt, List.find?_cons] at h
      split at h
      · next hid =>
          cases h
          exact ⟨[], e, es, rfl, of_decide_eq_true hid, rfl⟩
      · obtain ⟨before, e', after, rfl, hid, rfl⟩ := ih h
        refine ⟨e :: before, e', after, rfl, hid, ?_⟩
        rw [IlocWidths.encodeItems_cons, List.length_append, Nat.add_assoc]

/-- An item is found by its id. -/
theorem find?_itemsAt {w : IlocWidths} {cursor : Nat} {before after : List ItemEntry}
    {e : ItemEntry} (hnodup : ((before ++ e :: after).map (·.itemId)).Nodup) :
    (w.itemsAt cursor (before ++ e :: after)).find? (fun item => item.itemId = e.itemId) =
      some (w.itemAt (cursor + (w.encodeItems before).length) e) := by
  rw [itemsAt_append, List.find?_append]
  have hnone : (w.itemsAt cursor before).find? (fun item => item.itemId = e.itemId) = none := by
    rw [List.find?_eq_none]
    intro item hitem
    have hmem : item.itemId ∈ before.map (·.itemId) := by
      rw [← map_itemId_itemsAt w cursor before]
      exact List.mem_map_of_mem hitem
    rw [List.map_append, List.nodup_append] at hnodup
    have hne := hnodup.2.2 _ hmem e.itemId (by simp)
    simpa using hne
  rw [hnone, IlocWidths.itemsAt, List.find?_cons_of_pos (by simp [IlocWidths.itemAt])]
  rfl

theorem onlyExtent_eq_ok {item : IlocItem} {extent : IlocExtent}
    (h : onlyExtent item = .ok extent) :
    item.constructionMethod = 0 ∧ item.extents = [extent] := by
  unfold onlyExtent at h
  split at h
  · next hmethod hextents =>
      rw [pure_eq_ok] at h
      exact ⟨hmethod, h ▸ hextents⟩
  · cases h

theorem exists_of_extentsAt_eq_singleton {w : IlocWidths} {cursor : Nat}
    {xs : List ExtentEntry} {extent : IlocExtent} (h : w.extentsAt cursor xs = [extent]) :
    ∃ x, xs = [x] ∧ extent = ⟨fieldPos w.offsetSize (cursor + w.indexSize),
      fieldPos w.lengthSize (cursor + w.indexSize + w.offsetSize), x.offset, x.length⟩ := by
  match xs, h with
  | [x], h =>
      simp only [IlocWidths.extentsAt, List.cons.injEq, and_true] at h
      exact ⟨x, rfl, h.symm⟩

section repointing

variable {w : IlocWidths} {pre rest bytes : List UInt8} {e : ItemEntry} {x : ExtentEntry}

/-- The bytes of an item before the offset of its only extent, and after it. -/
theorem exists_encodeItem_single (w : IlocWidths) (e : ItemEntry) (index : Nat) :
    ∃ front : List UInt8, front.length = w.extentsStart + w.indexSize ∧ ∀ offset length rest,
      w.encodeItem { e with extents := [⟨index, offset, length⟩] } ++ rest =
        front ++ (toBe w.offsetSize offset ++ (toBe w.lengthSize length ++ rest)) := by
  refine ⟨toBe w.itemIdSize e.itemId ++ toBe w.methodSize e.packedMethod ++
    toBe 2 e.dataReferenceIndex ++ toBe w.baseOffsetSize e.baseOffset ++ toBe 2 1 ++
    toBe w.indexSize index, ?_, fun offset length rest => ?_⟩
  · simp [IlocWidths.extentsStart, IlocWidths.baseOffsetStart, Nat.add_assoc]
  · simp [IlocWidths.encodeItem, IlocWidths.encodeExtents, IlocWidths.encodeExtent]

theorem writeExtentOffset_encode {offset : Nat} (he : w.ItemFits { e with extents := [x] })
    (h : writeUint (pre ++ (w.encodeItem { e with extents := [x] } ++ rest))
      (pre.length + w.extentsStart + w.indexSize) w.offsetSize offset = .ok bytes)
    (hoffset : offset < 2 ^ 64) :
    bytes = pre ++ (w.encodeItem { e with extents := [{ x with offset := offset }] } ++ rest) ∧
      w.ItemFits { e with extents := [{ x with offset := offset }] } := by
  have hx := he.extents x (by simp)
  obtain ⟨front, hlength, hencode⟩ := exists_encodeItem_single w e x.index
  have hpos : pre.length + w.extentsStart + w.indexSize = (pre ++ front).length := by
    rw [List.length_append, hlength, Nat.add_assoc]
  rw [hencode, ← List.append_assoc, hpos] at h
  obtain ⟨rfl, hlt⟩ := writeUint_toBe h hoffset
  refine ⟨?_, { he with
    extents := by simpa using ⟨hx.index, hlt, hx.length⟩ }⟩
  rw [hencode, List.append_assoc]

theorem writeExtentLength_encode {length : Nat} (he : w.ItemFits { e with extents := [x] })
    (h : writeUint (pre ++ (w.encodeItem { e with extents := [x] } ++ rest))
      (pre.length + w.extentsStart + w.indexSize + w.offsetSize) w.lengthSize length = .ok bytes)
    (hlength : length < 2 ^ 64) :
    bytes = pre ++ (w.encodeItem { e with extents := [{ x with length := length }] } ++ rest) ∧
      w.ItemFits { e with extents := [{ x with length := length }] } := by
  have hx := he.extents x (by simp)
  obtain ⟨front, hfront, hencode⟩ := exists_encodeItem_single w e x.index
  have hpos : pre.length + w.extentsStart + w.indexSize + w.offsetSize =
      (pre ++ (front ++ toBe w.offsetSize x.offset)).length := by
    simp [hfront, Nat.add_assoc]
  rw [hencode, ← List.append_assoc front, ← List.append_assoc pre, hpos] at h
  obtain ⟨rfl, hlt⟩ := writeUint_toBe h hlength
  refine ⟨?_, { he with
    extents := by simpa using ⟨hx.index, hx.offset, hlt⟩ }⟩
  rw [hencode]
  simp only [List.append_assoc]

theorem eq_zero_of_noBytes {x size : Nat} (h : x < 256 ^ size) (hsize : size = 0) : x = 0 := by
  rw [hsize, Nat.pow_zero] at h
  exact Nat.lt_one_iff.mp h

theorem writeOffset_encode {newOffset : Nat} (he : w.ItemFits { e with extents := [x] })
    (hnew : newOffset < 2 ^ 64)
    (h : writeOffset w (pre ++ (w.encodeItem { e with extents := [x] } ++ rest))
      (w.itemAt pre.length { e with extents := [x] })
      ⟨fieldPos w.offsetSize (pre.length + w.extentsStart + w.indexSize),
        fieldPos w.lengthSize (pre.length + w.extentsStart + w.indexSize + w.offsetSize), x.offset,
        x.length⟩ newOffset = .ok bytes) :
    ∃ base offset, base + offset = newOffset ∧
      w.ItemFits { e with baseOffset := base, extents := [{ x with offset := offset }] } ∧
      bytes = pre ++ (w.encodeItem
        { e with baseOffset := base, extents := [{ x with offset := offset }] } ++ rest) := by
  have hx := he.extents x (by simp)
  unfold writeOffset at h
  by_cases hoffset : w.offsetSize = 0
  · have hzero : x.offset = 0 := eq_zero_of_noBytes hx.offset hoffset
    have hbase : w.baseOffsetSize = 0 → e.baseOffset = 0 := eq_zero_of_noBytes he.baseOffset
    simp only [IlocWidths.itemAt, fieldPos, hoffset, if_true] at h
    by_cases hsize : w.baseOffsetSize = 0
    · simp only [hsize, if_true, bind_eq_ok, ensure_eq_ok, pure_eq_ok] at h
      obtain ⟨-, hnewzero, rfl⟩ := h
      exact ⟨e.baseOffset, x.offset, by rw [hbase hsize, hzero, hnewzero], he, rfl⟩
    · simp only [hsize, if_false] at h
      obtain ⟨rfl, hfits⟩ := shiftBase_encode he h hnew
      exact ⟨newOffset, x.offset, by rw [hzero, Nat.add_zero], hfits, rfl⟩
  · simp only [IlocWidths.itemAt, fieldPos_of_ne hoffset, bind_eq_ok] at h
    obtain ⟨_, hensure, hwrite⟩ := h
    have hle := ensure_eq_ok.mp hensure
    obtain ⟨rfl, hfits⟩ := writeExtentOffset_encode he hwrite
      (Nat.lt_of_le_of_lt (Nat.sub_le _ _) hnew)
    exact ⟨e.baseOffset, newOffset - e.baseOffset, Nat.add_sub_cancel' hle, hfits, rfl⟩

theorem writeLength_encode {cursor offset' newLength : Nat}
    (he : w.ItemFits { e with extents := [x] }) (hcursor : cursor = pre.length + w.extentsStart)
    (hnew : newLength < 2 ^ 64)
    (h : writeLength w (pre ++ (w.encodeItem { e with extents := [x] } ++ rest))
      ⟨fieldPos w.offsetSize (cursor + w.indexSize),
        fieldPos w.lengthSize (cursor + w.indexSize + w.offsetSize), offset', x.length⟩ newLength =
      .ok bytes) :
    w.ItemFits { e with extents := [{ x with length := newLength }] } ∧
      bytes = pre ++ (w.encodeItem { e with extents := [{ x with length := newLength }] } ++
        rest) := by
  have hx := he.extents x (by simp)
  unfold writeLength at h
  by_cases hlength : w.lengthSize = 0
  · have hzero : x.length = 0 := eq_zero_of_noBytes hx.length hlength
    simp only [fieldPos, hlength, if_true, bind_eq_ok, ensure_eq_ok, pure_eq_ok] at h
    obtain ⟨-, hnewzero, rfl⟩ := h
    have hsame : ({ x with length := newLength } : ExtentEntry) = x := by
      rw [hnewzero, ← hzero]
    rw [hsame]
    exact ⟨he, rfl⟩
  · simp only [fieldPos_of_ne hlength, hcursor] at h
    obtain ⟨rfl, hfits⟩ := writeExtentLength_encode he h hnew
    exact ⟨hfits, rfl⟩

end repointing

/-- After a packet is pointed elsewhere, its item has the new place and the others are as they
were. -/
theorem rewriteExistingIloc_eq_ok {bytes newIloc : List UInt8} {iloc : RawBox} {b : IlocBody}
    {itemId newOffset newLength : Nat} (hbody : bodyOf bytes iloc = b.encode)
    (hoffset : newOffset < 2 ^ 64) (hlength : newLength < 2 ^ 64)
    (h : rewriteExistingIloc bytes iloc b.layout itemId newOffset newLength = .ok newIloc) :
    ∃ (before after : List ItemEntry) (e : ItemEntry) (x : ExtentEntry) (base offset : Nat)
      (b' : IlocBody), b.items = before ++ { e with extents := [x] } :: after ∧
      e.itemId = itemId ∧ e.packedMethod % 16 = 0 ∧ base + offset = newOffset ∧ b'.w = b.w ∧
      b'.items = before ++
        { e with baseOffset := base, extents := [⟨x.index, offset, newLength⟩] } :: after ∧
      boxWithBody iloc.kind b'.encode = .ok newIloc := by
  simp only [rewriteExistingIloc, bind_eq_ok, require_eq_ok, hbody] at h
  obtain ⟨item, hitem, extent, hextent, body, hwrite, body', hwrite', hbox⟩ := h
  obtain ⟨before, e, after, hitems, hid, rfl⟩ := exists_of_find?_itemsAt hitem
  obtain ⟨hmethod, hextents⟩ := onlyExtent_eq_ok hextent
  obtain ⟨x, hxs, rfl⟩ := exists_of_extentsAt_eq_singleton hextents
  obtain ⟨eid, packed, ref, ebase, xs⟩ := e
  obtain rfl : xs = [x] := hxs
  let e : ItemEntry := ⟨eid, packed, ref, ebase, [x]⟩
  have hfits : b.w.ItemFits e := b.fits e (by rw [hitems]; simp [e])
  have hparts (e' : ItemEntry) :
      b.head ++ (toBe b.w.countSize b.items.length ++
        b.w.encodeItems (before ++ e' :: after)) =
      (b.head ++ toBe b.w.countSize b.items.length ++ b.w.encodeItems before) ++
        (b.w.encodeItem e' ++ b.w.encodeItems after) := by
    simp only [IlocWidths.encodeItems_append, IlocWidths.encodeItems_cons, List.append_assoc]
  have hpos : b.itemsStart + (b.w.encodeItems before).length =
      (b.head ++ toBe b.w.countSize b.items.length ++ b.w.encodeItems before).length := by
    rw [List.length_append, b.length_itemsStart]
  have hencode : b.encode = (b.head ++ toBe b.w.countSize b.items.length ++
      b.w.encodeItems before) ++ (b.w.encodeItem e ++ b.w.encodeItems after) := by
    rw [IlocBody.encode, ← hparts, ← hitems]
  rw [hencode, hpos] at hwrite
  obtain ⟨base, offset, hsum, hfits', rfl⟩ := writeOffset_encode (e := e) (x := x) hfits hoffset
    hwrite
  rw [hpos] at hwrite'
  obtain ⟨hfits'', rfl⟩ := writeLength_encode (e := { e with baseOffset := base })
    (x := { x with offset := offset }) hfits' rfl hlength hwrite'
  have hnodup := b.nodup
  have hinternal := b.internal
  have hall := b.fits
  have hcount := b.count_lt
  rw [hitems] at hnodup hinternal hall hcount
  rw [List.forall_mem_append, List.forall_mem_cons] at hinternal hall
  refine ⟨before, after, e, x, base, offset, {
    head := b.head
    w := b.w
    items := before ++ { e with baseOffset := base, extents := [⟨x.index, offset, newLength⟩] } ::
      after
    length_head := b.length_head
    widths := b.widths
    fits := List.forall_mem_append.mpr ⟨hall.1, List.forall_mem_cons.mpr ⟨hfits'', hall.2.2⟩⟩
    internal := List.forall_mem_append.mpr
      ⟨hinternal.1, List.forall_mem_cons.mpr ⟨hinternal.2.1, hinternal.2.2⟩⟩
    nodup := by simpa using hnodup
    count_lt := by simpa using hcount }, hitems, hid, hmethod, hsum, rfl, rfl, ?_⟩
  rw [← hbox, IlocBody.encode, ← hparts]
  simp only [hitems, List.length_append, List.length_cons]

end Kei.Heif
