import Kei.Heif.Relocations
import Kei.Lib.Traverse

/-!
# Kei.Heif.Ranges

Where the bytes of the items are.

A rewrite refuses a file with an item in `meta` or outside the file.  Moving
the items behind `meta` with it keeps them all clear of it, and the packet is
put behind all of them.
-/

namespace Kei.Heif

open Bytes Fallible

/-! ## items as they are read -/

section reading

variable {w : IlocWidths} {cursor : Nat}

theorem forall_extentsAt {P : Nat → Nat → Prop} {xs : List ExtentEntry} :
    (∀ x ∈ w.extentsAt cursor xs, P x.offset x.length) ↔ ∀ x ∈ xs, P x.offset x.length := by
  induction xs generalizing cursor with
  | nil => exact ⟨nofun, nofun⟩
  | cons x xs ih => rw [IlocWidths.extentsAt, List.forall_mem_cons, List.forall_mem_cons, ih]

theorem forall_itemsAt {Q : IlocItem → Prop} {P : ItemEntry → Prop}
    (h : ∀ cursor e, Q (w.itemAt cursor e) ↔ P e) {es : List ItemEntry} :
    (∀ item ∈ w.itemsAt cursor es, Q item) ↔ ∀ e ∈ es, P e := by
  induction es generalizing cursor with
  | nil => exact ⟨nofun, nofun⟩
  | cons e es ih => rw [IlocWidths.itemsAt, List.forall_mem_cons, List.forall_mem_cons, ih, h]

theorem exists_of_mem_extentsAt {xs : List ExtentEntry} {extent : IlocExtent}
    (h : extent ∈ w.extentsAt cursor xs) :
    ∃ x ∈ xs, extent.offset = x.offset ∧ extent.length = x.length := by
  induction xs generalizing cursor with
  | nil => cases h
  | cons x xs ih =>
      rcases List.mem_cons.mp h with rfl | h
      · exact ⟨x, List.mem_cons_self, rfl, rfl⟩
      · obtain ⟨x', hx', heq⟩ := ih h
        exact ⟨x', List.mem_cons_of_mem _ hx', heq⟩

end reading

/-! ## items clear of `meta` -/

namespace ItemEntry

/-- The range of an extent. -/
def extentStart (e : ItemEntry) (x : ExtentEntry) : Nat := e.baseOffset + x.offset

def extentStop (e : ItemEntry) (x : ExtentEntry) : Nat := e.baseOffset + x.offset + x.length

/-- The bytes that an item has in the file are there, and not in `meta`. -/
def Clear (length metaStart metaStop : Nat) (e : ItemEntry) : Prop :=
  e.packedMethod % 16 = 0 → ∀ x ∈ e.extents, e.extentStop x < 2 ^ 64 ∧
    e.extentStop x ≤ length ∧ ¬ (e.extentStart x < metaStop ∧ metaStart < e.extentStop x)

end ItemEntry

theorem rejectMetaOverlappingItems_eq_ok {layout : IlocLayout} {metaBox : RawBox} {u : Unit} :
    rejectMetaOverlappingItems layout metaBox = .ok u ↔
      ∀ item ∈ layout.items, item.constructionMethod = 0 → ∀ x ∈ item.extents,
        item.baseOffset + x.offset + x.length < 2 ^ 64 ∧
        ¬ (item.baseOffset + x.offset < metaBox.stop ∧
          metaBox.start < item.baseOffset + x.offset + x.length) := by
  unfold rejectMetaOverlappingItems
  simp only [forM_eq_ok, List.mem_filter, decide_eq_true_eq, and_imp, bind_eq_ok, require_eq_ok,
    checkedAdd_eq_some, ensure_eq_ok]
  refine forall₅_congr fun item _ _ x _ => ?_
  constructor
  · rintro ⟨_, ⟨-, rfl⟩, _, ⟨hfits, rfl⟩, hclear⟩
    exact ⟨hfits, hclear⟩
  · rintro ⟨hfits, hclear⟩
    exact ⟨_, ⟨by omega, rfl⟩, _, ⟨hfits, rfl⟩, hclear⟩

variable {bytes : List UInt8}

theorem exists_resolveItemExtents {item : IlocItem} :
    (∃ parts, resolveItemExtents bytes item = .ok parts) ↔ ∀ x ∈ item.extents,
      item.baseOffset + x.offset + x.length < 2 ^ 64 ∧
        item.baseOffset + x.offset + x.length ≤ bytes.length := by
  have hround (x : IlocExtent) : (∃ part, (do
      let start ← require (invalidLayout "HEIC item offset overflows")
        (checkedAdd item.baseOffset x.offset)
      let stop ← require (invalidLayout "HEIC item extent overflows") (checkedAdd start x.length)
      require (invalidLayout "HEIC item extent is outside the file") (slice? bytes start stop)) =
        Except.ok part) ↔ item.baseOffset + x.offset + x.length < 2 ^ 64 ∧
        item.baseOffset + x.offset + x.length ≤ bytes.length := by
    simp only [bind_eq_ok, require_eq_ok, checkedAdd_eq_some, slice?_eq_some]
    constructor
    · rintro ⟨part, _, ⟨-, rfl⟩, _, ⟨hfits, rfl⟩, -, hle, -⟩
      exact ⟨hfits, hle⟩
    · rintro ⟨hfits, hle⟩
      exact ⟨_, _, ⟨by omega, rfl⟩, _, ⟨hfits, rfl⟩, Nat.le_add_right _ _, hle, rfl⟩
  constructor
  · rintro ⟨parts, hparts⟩ x hx
    have hall := mapM_eq_ok.mp hparts
    obtain ⟨i, hi, rfl⟩ := List.getElem_of_mem hx
    exact (hround _).mp ⟨_, hall.get hi (hall.length_eq ▸ hi)⟩
  · exact fun h => exists_mapM_eq_ok fun x hx => (hround x).mpr (h x hx)

theorem ensureExtentsResolve_eq_ok {layout : IlocLayout} {u : Unit} :
    ensureExtentsResolve bytes layout = .ok u ↔
      ∀ item ∈ layout.items, item.constructionMethod = 0 → ∀ x ∈ item.extents,
        item.baseOffset + x.offset + x.length < 2 ^ 64 ∧
          item.baseOffset + x.offset + x.length ≤ bytes.length := by
  unfold ensureExtentsResolve
  simp only [forM_eq_ok, List.mem_filter, decide_eq_true_eq, and_imp, bind_eq_ok, pure_eq_ok]
  refine forall₃_congr fun item _ _ => ?_
  rw [← exists_resolveItemExtents]
  exact exists_congr fun parts => and_iff_left trivial

/-- A rewrite accepts the items just when they are clear of `meta`. -/
theorem clear_iff {b : IlocBody} {metaBox : RawBox} :
    (rejectMetaOverlappingItems b.layout metaBox = .ok () ∧
      ensureExtentsResolve bytes b.layout = .ok ()) ↔
      ∀ e ∈ b.items, e.Clear bytes.length metaBox.start metaBox.stop := by
  rw [rejectMetaOverlappingItems_eq_ok, ensureExtentsResolve_eq_ok, ← forall₂_and]
  refine forall_itemsAt fun cursor e => ?_
  rw [← imp_and, ← forall₂_and, ItemEntry.Clear]
  refine imp_congr_right fun _ => Iff.trans ?_ (@forall_extentsAt b.w
    (cursor + b.w.extentsStart) (fun offset length =>
      e.baseOffset + offset + length < 2 ^ 64 ∧ e.baseOffset + offset + length ≤ bytes.length ∧
        ¬ (e.baseOffset + offset < metaBox.stop ∧
          metaBox.start < e.baseOffset + offset + length)) _)
  refine forall₂_congr fun x _ => ?_
  constructor
  · rintro ⟨⟨hfits, hclear⟩, -, hle⟩
    exact ⟨hfits, hle, hclear⟩
  · rintro ⟨hfits, hle, hclear⟩
    exact ⟨⟨hfits, hclear⟩, hfits, hle⟩

/-! ## items that are moved -/

theorem isShifted_iff {e : ItemEntry} {boundary offset : Nat}
    (hfits : e.baseOffset + offset < 2 ^ 64) :
    e.isShifted boundary offset = true ↔ boundary ≤ e.baseOffset + offset := by
  have hadd : checkedAdd offset e.baseOffset = some (e.baseOffset + offset) := by
    rw [checkedAdd_eq_some]
    omega
  unfold ItemEntry.isShifted extentAtOrPastBoundary
  rw [hadd]
  exact decide_eq_true_iff

theorem ItemEntry.Clear.shift {w : IlocWidths} {e : ItemEntry}
    {length metaStart metaStop delta : Nat} (h : e.Clear length metaStart metaStop)
    (hfits : length + delta < 2 ^ 64) :
    (e.shift w delta metaStop).Clear (length + delta) metaStart (metaStop + delta) := by
  intro hmethod
  rw [shift_packedMethod] at hmethod
  have hclear := h hmethod
  have hmoved {x : ExtentEntry} (hx : x ∈ e.extents) :
      e.isShifted metaStop x.offset = true ↔ metaStop ≤ e.extentStart x := by
    have hstop := (hclear x hx).1
    unfold extentStop at hstop
    exact isShifted_iff (by omega)
  have hkept {x : ExtentEntry} (hx : x ∈ e.extents) (hnot : ¬ metaStop ≤ e.extentStart x) :
      e.extentStop x ≤ metaStart := by
    have hdisjoint := (hclear x hx).2.2
    omega
  unfold ItemEntry.shift
  split
  · next hkeep =>
      intro x hx
      obtain ⟨hlt, hle, -⟩ := hclear x hx
      have hnot : ¬ metaStop ≤ e.extentStart x := by
        rw [← hmoved hx]
        have hnone := List.any_eq_false.mp (hkeep.resolve_left (not_not_intro hmethod)) x hx
        exact hnone
      have hbefore := hkept hx hnot
      exact ⟨hlt, by omega, by omega⟩
  · split
    · next hall =>
        intro x hx
        obtain ⟨hlt, hle, -⟩ := hclear x hx
        have hpast := (hmoved hx).mp (List.all_eq_true.mp hall.1 x hx)
        simp only [extentStart, extentStop] at *
        omega
    · intro x' hx'
      obtain ⟨x, hx, rfl⟩ := List.mem_map.mp hx'
      obtain ⟨hlt, hle, -⟩ := hclear x hx
      have hiff := hmoved hx
      have hbefore := hkept hx
      unfold ExtentEntry.shift
      split
      · next hsel =>
          have hpast := hiff.mp hsel
          simp only [extentStart, extentStop] at *
          omega
      · next hsel =>
          have hnot := fun hpast => hsel (hiff.mpr hpast)
          have hbefore := hbefore hnot
          simp only [extentStart, extentStop] at *
          omega

/-! ## the packet behind the items -/

theorem itemExtentIsShared_eq_false {b : IlocBody} {itemId start length : Nat}
    (hfits : start + length < 2 ^ 64)
    (h : ∀ e ∈ b.items, e.itemId ≠ itemId → e.packedMethod % 16 = 0 → ∀ x ∈ e.extents,
      e.extentStop x < 2 ^ 64 ∧ e.extentStop x ≤ start) :
    itemExtentIsShared b.layout itemId start length = false := by
  have hadd : checkedAdd start length = some (start + length) :=
    checkedAdd_eq_some.mpr ⟨hfits, rfl⟩
  unfold itemExtentIsShared
  rw [hadd]
  refine List.any_eq_false.mpr fun item hitem => ?_
  obtain ⟨pos, e, he, rfl⟩ := exists_of_mem_itemsAt hitem
  rw [Bool.and_eq_true, Bool.and_eq_true, decide_eq_true_eq, decide_eq_true_eq, List.any_eq_true]
  rintro ⟨⟨hne, hmethod⟩, extent, hextent, hover⟩
  obtain ⟨x, hx, hoffset, hlength⟩ := exists_of_mem_extentsAt hextent
  obtain ⟨hlt, hle⟩ := h e he hne hmethod x hx
  have hrange : extentRange (b.w.itemAt pos e) extent =
      some (e.extentStart x, e.extentStop x) := by
    unfold ItemEntry.extentStop at hlt
    simp only [extentRange, Option.bind_eq_bind, Option.bind_eq_some_iff, checkedAdd_eq_some,
      Option.pure_def, Option.some.injEq]
    rw [hoffset, hlength]
    exact ⟨_, ⟨by show e.baseOffset + x.offset < _; omega, rfl⟩, _, ⟨hlt, rfl⟩, rfl⟩
  rw [hrange, Bool.and_eq_true, decide_eq_true_eq, decide_eq_true_eq] at hover
  omega

theorem locateItem_eq {bytes : List UInt8} {b : IlocBody} {before after : List ItemEntry}
    {e : ItemEntry} {x : ExtentEntry} (hitems : b.items = before ++ e :: after)
    (hextents : e.extents = [x]) (hmethod : e.packedMethod % 16 = 0)
    (hfits : e.extentStop x < 2 ^ 64) (hle : e.extentStop x ≤ bytes.length) :
    locateItem bytes b.layout.items e.itemId = some ⟨e.itemId, e.extentStart x, x.length⟩ ∧
      ∃ item, b.layout.items.find? (fun item => item.itemId = e.itemId) = some item ∧
        item.extents.length = 1 := by
  have hnodup := b.nodup
  rw [hitems] at hnodup
  have hfind := @find?_itemsAt b.w b.itemsStart _ _ _ hnodup
  rw [← hitems] at hfind
  unfold ItemEntry.extentStop at hfits hle
  have hstart : checkedAdd e.baseOffset x.offset = some (e.extentStart x) :=
    checkedAdd_eq_some.mpr ⟨by omega, rfl⟩
  have hstop : checkedAdd (e.extentStart x) x.length = some (e.extentStart x + x.length) :=
    checkedAdd_eq_some.mpr ⟨hfits, rfl⟩
  refine ⟨?_, _, hfind, by simp [IlocWidths.itemAt, hextents]⟩
  unfold locateItem
  rw [show b.layout.items = b.w.itemsAt b.itemsStart b.items from rfl, hfind]
  simp only [IlocWidths.itemAt, hextents, IlocWidths.extentsAt, List.head?_cons,
    Option.bind_eq_bind, Option.bind_some, hstart, hstop, hmethod, true_and]
  exact if_pos hle

end Kei.Heif
