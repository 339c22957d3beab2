import Kei.Heif.Boxes
import Kei.Lib.Traverse
import Kei.Lib.Worklist

/-!
# Kei.Heif.TiffRanges

The ranges of an Exif block that a rewrite of its dates may change.

The IFDs of the block are walked from the first one, through every pointer that
they have, and the rewrite is refused where it would touch one of them, or the
value of an entry that it is not about.
-/

namespace Kei.Heif

open Bytes Fallible

/-! ## fields -/

inductive TiffEndian where
  | little
  | big

/-- An entry of an IFD, and where it starts. -/
structure TiffEntry where
  start : Nat
  tag : Nat
  fieldType : Nat
  count : Nat
  valueOrOffset : Nat

structure ByteRange where
  start : Nat
  stop : Nat

def ByteRange.Has (range : ByteRange) (i : Nat) : Prop := range.start ≤ i ∧ i < range.stop

/-- A product of 64-bit numbers, which is checked. -/
def checkedMul (a b : Nat) : Option Nat := if a * b < 2 ^ 64 then some (a * b) else none

/-- The end of a range that is checked, and within the bytes. -/
def checkedEnd (tiff : List UInt8) (start length : Nat) : Option Nat :=
  (checkedAdd start length).filter (fun stop => stop ≤ tiff.length)

def tiffUint (endian : TiffEndian) (field : List UInt8) : Nat :=
  match endian with
  | .little => beNat field.reverse
  | .big => beNat field

def tiffUintAt (bytes : List UInt8) (offset width : Nat) (endian : TiffEndian) :
    Except HeifError Nat := do
  let field ← require (invalidLayout "TIFF field is truncated")
    (slice? bytes offset (min (offset + width) (2 ^ 64 - 1)))
  ensure (field.length = width) (invalidLayout "TIFF field is invalid")
  pure (tiffUint endian field)

def tiffU16At (bytes : List UInt8) (offset : Nat) (endian : TiffEndian) : Except HeifError Nat :=
  tiffUintAt bytes offset 2 endian

def tiffU32At (bytes : List UInt8) (offset : Nat) (endian : TiffEndian) : Except HeifError Nat :=
  tiffUintAt bytes offset 4 endian

/-! ## tables -/

def readTiffEntry (tiff : List UInt8) (entriesStart : Nat) (endian : TiffEndian) (index : Nat) :
    Except HeifError TiffEntry := do
  let start ← require (invalidLayout "TIFF entry offset overflows")
    ((checkedMul index 12).bind (checkedAdd entriesStart))
  let tag ← tiffU16At tiff start endian
  let fieldType ← tiffU16At tiff (start + 2) endian
  let count ← tiffU32At tiff (start + 4) endian
  let valueOrOffset ← tiffU32At tiff (start + 8) endian
  pure ⟨start, tag, fieldType, count, valueOrOffset⟩

/-- The range of the table, its entries, and the next IFD. -/
def readTiffIfd (tiff : List UInt8) (ifdOffset : Nat) (endian : TiffEndian) :
    Except HeifError (ByteRange × List TiffEntry × Option Nat) := do
  let count ← tiffU16At tiff ifdOffset endian
  let entriesStart ← require (invalidLayout "TIFF IFD offset overflows") (checkedAdd ifdOffset 2)
  let nextIfdPos ← require (invalidLayout "TIFF IFD is truncated")
    (((checkedMul count 12).bind (checkedAdd entriesStart)).filter
      (fun stop => min (stop + 4) (2 ^ 64 - 1) ≤ tiff.length))
  let structureEnd ← require (invalidLayout "TIFF IFD is truncated") (checkedEnd tiff nextIfdPos 4)
  let entries ← (List.range count).mapM (readTiffEntry tiff entriesStart endian)
  let nextIfd ← tiffU32At tiff nextIfdPos endian
  pure (⟨ifdOffset, structureEnd⟩, entries, if nextIfd = 0 then none else some nextIfd)

def findTiffEntryIn (entries : List TiffEntry) (tag : Nat) :
    Except HeifError (Option TiffEntry) :=
  match entries.filter (fun entry => entry.tag = tag) with
  | [] => pure none
  | [entry] => pure (some entry)
  | _ => .error (invalidLayout "TIFF contains duplicate metadata tags")

/-! ## values -/

/-- How many bytes a value of a type takes. -/
def fieldWidth : Nat → Option Nat
  | 1 | 2 | 6 | 7 => some 1
  | 3 | 8 => some 2
  | 4 | 9 | 11 | 13 => some 4
  | 5 | 10 | 12 => some 8
  | _ => none

/-- The range of the values of an entry, unless they are in the entry itself. -/
def tiffEntryDataRange (tiff : List UInt8) (entry : TiffEntry) :
    Except HeifError (Option ByteRange) := do
  let width ← require (invalidLayout "TIFF entry has an unsupported field type")
    (fieldWidth entry.fieldType)
  let length ← require (invalidLayout "TIFF entry payload is too large")
    (checkedMul entry.count width)
  if length ≤ 4 then pure none
  else do
    let stop ← require (invalidLayout "TIFF entry payload is truncated")
      (checkedEnd tiff entry.valueOrOffset length)
    pure (some ⟨entry.valueOrOffset, stop⟩)

def tiffUnsignedValues (tiff : List UInt8) (entry : TiffEntry) (endian : TiffEndian) :
    Except HeifError (List Nat) := do
  let width ← match entry.fieldType with
    | 3 => pure 2
    | 4 => pure 4
    | _ => .error (invalidLayout "TIFF image-data offset or length has an unsupported type")
  let length ← require (invalidLayout "TIFF image-data values are too large")
    (checkedMul entry.count width)
  let start ←
    if length ≤ 4 then
      require (invalidLayout "TIFF inline value offset overflows") (checkedAdd entry.start 8)
    else pure entry.valueOrOffset
  let _ ← require (invalidLayout "TIFF image-data values are truncated")
    (checkedEnd tiff start length)
  (List.range entry.count).mapM fun index => do
    let position ← require (invalidLayout "TIFF image-data value offset overflows")
      ((checkedMul index width).bind (checkedAdd start))
    tiffUintAt tiff position width endian

def tiffReferencedDataRanges (tiff : List UInt8) (entries : List TiffEntry) (endian : TiffEndian)
    (tags : Nat × Nat) : Except HeifError (List ByteRange) := do
  let offsetEntry ← findTiffEntryIn entries tags.1
  let lengthEntry ← findTiffEntryIn entries tags.2
  match offsetEntry, lengthEntry with
  | some offsetEntry, some lengthEntry => do
      let offsets ← tiffUnsignedValues tiff offsetEntry endian
      let lengths ← tiffUnsignedValues tiff lengthEntry endian
      ensure (offsets.length = lengths.length)
        (invalidLayout "TIFF image-data offset and length counts differ")
      ((offsets.zip lengths).filter (fun e => e.2 ≠ 0)).mapM fun e => do
        let stop ← require (invalidLayout "TIFF image-data range is truncated")
          (checkedEnd tiff e.1 e.2)
        pure ⟨e.1, stop⟩
  | none, none => pure []
  | _, _ => .error (invalidLayout "TIFF image-data offset and length tags are incomplete")

/-! ## the walk -/

/-- The values of an entry with the offsets of IFDs. -/
def subIfdOffsets (tiff : List UInt8) (endian : TiffEndian) (entry : TiffEntry) :
    Except HeifError (List Nat) :=
  match tiffEntryDataRange tiff entry with
  | .error e => .error e
  | .ok none => pure []
  -- the positions are within the range, so that none of them overflows
  | .ok (some range) => (List.range entry.count).mapM fun index =>
      tiffU32At tiff (range.start + 4 * index) endian

/-- The IFDs that an entry points to. -/
def entryPointers (tiff : List UInt8) (endian : TiffEndian) (entry : TiffEntry) :
    Except HeifError (List Nat) :=
  if entry.tag ∈ [0x8769, 0x8825, 0xA005] ∧ entry.fieldType = 4 ∧ entry.count = 1 then
    pure [entry.valueOrOffset]
  else if entry.tag = 0x014A ∧ entry.fieldType = 4 then
    if entry.count = 1 then pure [entry.valueOrOffset] else subIfdOffsets tiff endian entry
  else pure []

/-- The values of an entry are protected, unless they are what is to be changed. -/
def protectedRange (tiff : List UInt8) (targetEntries : List Nat) (entry : TiffEntry) :
    Except HeifError (Option ByteRange) :=
  if entry.start ∈ targetEntries then pure none else tiffEntryDataRange tiff entry

def visitEntry (tiff : List UInt8) (endian : TiffEndian) (targetEntries : List Nat)
    (entry : TiffEntry) : Except HeifError (List Nat × Option ByteRange) := do
  let pointers ← entryPointers tiff endian entry
  let range ← protectedRange tiff targetEntries entry
  pure (pointers, range)

/-- One round of the loop: the offsets that are pushed, the last one first, and the ranges that
are protected. -/
def visitIfd (tiff : List UInt8) (endian : TiffEndian) (targetEntries : List Nat)
    (ifdOffset : Nat) : Except HeifError (List Nat × List ByteRange) := do
  let (table, entries, nextIfd) ← readTiffIfd tiff ifdOffset endian
  let referenced ← [(0x0111, 0x0117), (0x0144, 0x0145), (0x0201, 0x0202)].mapM
    (tiffReferencedDataRanges tiff entries endian)
  let visits ← entries.mapM (visitEntry tiff endian targetEntries)
  pure ((nextIfd.toList ++ visits.flatMap (·.1)).reverse,
    table :: referenced.flatten ++ visits.filterMap (·.2))

def maxLinkedIfds : Nat := 64

/-- The IFDs that are visited, and what they protect. -/
def walkIfds (tiff : List UInt8) (endian : TiffEndian) (ifd0Offset : Nat)
    (targetEntries : List Nat) : List Nat × Except HeifError (List ByteRange) :=
  Worklist.walk (visitIfd tiff endian targetEntries) maxLinkedIfds
    (invalidLayout "TIFF contains too many linked IFDs") [ifd0Offset] [] [⟨0, 8⟩]

def rangesOverlap (left right : ByteRange) : Bool :=
  left.start < right.stop && right.start < left.stop

def validateTiffPatchRanges (tiff : List UInt8) (endian : TiffEndian) (ifd0Offset : Nat)
    (targets : List (TiffEntry × ByteRange)) : Except HeifError Unit := do
  ensure (targets.Pairwise fun target other => rangesOverlap target.2 other.2 = false)
    (invalidLayout "HEIF Exif datetime fields overlap")
  let protectedRanges ← (walkIfds tiff endian ifd0Offset (targets.map (·.1.start))).2
  ensure (∀ target ∈ targets, ∀ range ∈ protectedRanges, rangesOverlap target.2 range = false)
    (invalidLayout "HEIF Exif datetime storage overlaps other TIFF data")

/-! ## what a round does -/

variable {tiff : List UInt8} {endian : TiffEndian} {targetEntries : List Nat} {ifdOffset : Nat}

/-- The bytes of the values of an entry, in the entry itself or at its offset. -/
def TiffEntry.valueBytes (entry : TiffEntry) (width : Nat) : ByteRange :=
  if entry.count * width ≤ 4 then ⟨entry.start + 8, entry.start + 8 + entry.count * width⟩
  else ⟨entry.valueOrOffset, entry.valueOrOffset + entry.count * width⟩

/-- One IFD leads to another one, by its pointers or as the next one. -/
def PointsTo (tiff : List UInt8) (endian : TiffEndian) (ifdOffset other : Nat) : Prop :=
  ∃ table entries nextIfd, readTiffIfd tiff ifdOffset endian = .ok (table, entries, nextIfd) ∧
    (nextIfd = some other ∨
      ∃ entry ∈ entries, ∃ pointers, entryPointers tiff endian entry = .ok pointers ∧
        other ∈ pointers)

@[simp] theorem checkedMul_eq_some {a b c : Nat} :
    checkedMul a b = some c ↔ a * b < 2 ^ 64 ∧ a * b = c := by
  unfold checkedMul
  split
  · next hfits => simp only [Option.some.injEq, hfits, true_and]
  · next hover => simp only [reduceCtorEq, hover, false_and]

@[simp] theorem checkedEnd_eq_some {start length stop : Nat} :
    checkedEnd tiff start length = some stop ↔
      start + length < 2 ^ 64 ∧ start + length = stop ∧ stop ≤ tiff.length := by
  simp [checkedEnd, Option.filter_eq_some_iff, and_assoc]

theorem start_of_readTiffEntry {entriesStart index : Nat} {entry : TiffEntry}
    (h : readTiffEntry tiff entriesStart endian index = .ok entry) :
    entry.start = entriesStart + 12 * index := by
  simp only [readTiffEntry, bind_eq_ok, require_eq_ok, Option.bind_eq_some_iff,
    checkedMul_eq_some, checkedAdd_eq_some, pure_eq_ok] at h
  obtain ⟨start, ⟨_, ⟨-, rfl⟩, -, rfl⟩, _, -, _, -, _, -, _, -, rfl⟩ := h
  exact congrArg _ (Nat.mul_comm _ _)

/-- A table is two bytes for the number of its entries, twelve for each, and four for the next
IFD. -/
theorem readTiffIfd_table {table : ByteRange} {entries : List TiffEntry} {nextIfd : Option Nat}
    (h : readTiffIfd tiff ifdOffset endian = .ok (table, entries, nextIfd)) :
    table = ⟨ifdOffset, ifdOffset + 2 + 12 * entries.length + 4⟩ ∧
      ∀ entry ∈ entries, ifdOffset ≤ entry.start ∧ entry.start + 12 ≤ table.stop := by
  simp only [readTiffIfd, bind_eq_ok, require_eq_ok, Option.filter_eq_some_iff,
    Option.bind_eq_some_iff, checkedMul_eq_some, checkedAdd_eq_some, checkedEnd_eq_some,
    pure_eq_ok, Prod.mk.injEq] at h
  obtain ⟨count, -, entriesStart, ⟨-, rfl⟩, nextIfdPos, ⟨⟨_, ⟨-, rfl⟩, -, rfl⟩, -⟩, structureEnd,
    ⟨-, rfl, -⟩, read, hentries, _, -, rfl, rfl, -⟩ := h
  have hlength : read.length = count := by
    rw [← (mapM_eq_ok.mp hentries).length_eq, List.length_range]
  refine ⟨by rw [hlength, Nat.mul_comm 12], fun entry hentry => ?_⟩
  obtain ⟨index, hindex, hread⟩ := exists_of_mem_mapM hentries hentry
  have hstart := start_of_readTiffEntry hread
  have hlt := List.mem_range.mp hindex
  dsimp only
  omega

theorem valueBytes_of_dataRange {entry : TiffEntry} {range : Option ByteRange}
    (h : tiffEntryDataRange tiff entry = .ok range) :
    ∃ width, fieldWidth entry.fieldType = some width ∧ ∀ i, (entry.valueBytes width).Has i →
      (entry.start + 8 ≤ i ∧ i < entry.start + 12) ∨ ∃ r ∈ range, r.Has i := by
  simp only [tiffEntryDataRange, bind_eq_ok, require_eq_ok, checkedMul_eq_some] at h
  obtain ⟨width, hwidth, _, ⟨-, rfl⟩, hrange⟩ := h
  refine ⟨width, hwidth, fun i hi => ?_⟩
  unfold TiffEntry.valueBytes at hi
  split at hi
  · next hinline => exact .inl ⟨hi.1, by have := hi.2; dsimp only at this; omega⟩
  · next hlong =>
      rw [if_neg hlong] at hrange
      simp only [bind_eq_ok, require_eq_ok, checkedEnd_eq_some, pure_eq_ok] at hrange
      obtain ⟨_, ⟨-, rfl, -⟩, rfl⟩ := hrange
      exact .inr ⟨_, rfl, hi⟩

/-- A round has read the IFD, pushes what it leads to, and protects its table and the values of
its entries. -/
theorem visitIfd_eq_ok {next : List Nat} {new : List ByteRange}
    (h : visitIfd tiff endian targetEntries ifdOffset = .ok (next, new)) :
    (∀ other, other ∈ next ↔ PointsTo tiff endian ifdOffset other) ∧
    ∃ table entries nextIfd, readTiffIfd tiff ifdOffset endian = .ok (table, entries, nextIfd) ∧
      table ∈ new ∧ ∀ entry ∈ entries, entry.start ∉ targetEntries →
        ∃ range, tiffEntryDataRange tiff entry = .ok range ∧ ∀ r ∈ range, r ∈ new := by
  simp only [visitIfd, bind_eq_ok, Prod.exists, pure_eq_ok, Prod.mk.injEq] at h
  obtain ⟨table, entries, nextIfd, hread, referenced, -, visits, hvisits, rfl, rfl⟩ := h
  refine ⟨fun other => ?_, table, entries, nextIfd, hread, by simp, fun entry hmem hother => ?_⟩
  · simp only [List.mem_reverse, List.mem_append, Option.mem_toList, List.mem_flatMap]
    constructor
    · rintro (hnext | ⟨visit, hvisit, hother⟩)
      · exact ⟨table, entries, nextIfd, hread, .inl hnext⟩
      · obtain ⟨entry, hmem, hok⟩ := exists_of_mem_mapM hvisits hvisit
        simp only [visitEntry, bind_eq_ok, pure_eq_ok] at hok
        obtain ⟨pointers, hpointers, range, -, rfl⟩ := hok
        exact ⟨table, entries, nextIfd, hread, .inr ⟨entry, hmem, pointers, hpointers, hother⟩⟩
    · rintro ⟨table', entries', nextIfd', hread', hleads⟩
      obtain ⟨rfl, rfl, rfl⟩ : table = table' ∧ entries = entries' ∧ nextIfd = nextIfd' := by
        simpa using hread.symm.trans hread'
      rcases hleads with hnext | ⟨entry, hmem, pointers, hpointers, hother⟩
      · exact .inl hnext
      · obtain ⟨visit, hvisit, hok⟩ := exists_result_of_mapM hvisits hmem
        simp only [visitEntry, hpointers, ok_bind, bind_eq_ok, pure_eq_ok] at hok
        obtain ⟨range, -, rfl⟩ := hok
        exact .inr ⟨_, hvisit, hother⟩
  · obtain ⟨visit, hvisit, hok⟩ := exists_result_of_mapM hvisits hmem
    simp only [visitEntry, protectedRange, if_neg hother, bind_eq_ok, pure_eq_ok] at hok
    obtain ⟨pointers, -, range, hrange, rfl⟩ := hok
    refine ⟨range, hrange, fun r hr => ?_⟩
    have hfound : r ∈ visits.filterMap (·.2) := List.mem_filterMap.mpr ⟨_, hvisit, hr⟩
    exact List.mem_cons_of_mem _ (List.mem_append_right _ hfound)

/-! ## the walk and the targets -/

theorem not_rangesOverlap {left right : ByteRange} (h : rangesOverlap left right = false) (i : Nat)
    (hi : left.Has i) : ¬ right.Has i := by
  intro hright
  have hoverlap : rangesOverlap left right = true := by
    simp only [rangesOverlap, Bool.and_eq_true, decide_eq_true_eq]
    exact ⟨Nat.lt_of_le_of_lt hi.1 hright.2, Nat.lt_of_le_of_lt hright.1 hi.2⟩
  rw [h] at hoverlap
  cases hoverlap

/-- A byte of a target is in no table, and in no value of an entry but the targets'. -/
def Spared (tiff : List UInt8) (endian : TiffEndian) (targetEntries : List Nat)
    (ifdOffset i : Nat) : Prop :=
  ∃ entries nextIfd,
    readTiffIfd tiff ifdOffset endian =
      .ok (⟨ifdOffset, ifdOffset + 2 + 12 * entries.length + 4⟩, entries, nextIfd) ∧
    ¬ (ifdOffset ≤ i ∧ i < ifdOffset + 2 + 12 * entries.length + 4) ∧
    ∀ entry ∈ entries, entry.start ∉ targetEntries →
      ∃ width, fieldWidth entry.fieldType = some width ∧ ¬ (entry.valueBytes width).Has i

end Kei.Heif
