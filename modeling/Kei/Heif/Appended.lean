import Kei.Heif.Settled

/-!
# Kei.Heif.Appended

The two ways of writing a packet behind the file.

An item with a packet is pointed at the new place, and a file without one
gets a new item.  What is read of the output is what was read of the input,
with the item changed or added.
-/

namespace Kei.Heif

open Bytes Fallible

/-! ## what is read again -/

variable {bytes : List UInt8}

theorem wide_of_headerSize {box : RawBox} {a : Atom} (h : Holds bytes box a)
    (hheader : box.headerSize = 8) : a.wide = false := by
  rw [h.headerSize, Atom.headerSize] at hheader
  cases hwide : a.wide with
  | false => rfl
  | true => simp [hwide] at hheader

/-- A box that is read ends within the file. -/
theorem Holds.stop_le_length {box : RawBox} {a : Atom} (h : Holds bytes box a) :
    box.stop ≤ bytes.length := by
  have hlen := congrArg List.length h.drop
  rw [List.length_drop, List.length_append, a.length_encode, List.length_drop] at hlen
  have hsize := a.eight_le_size
  rw [h.stop] at hlen ⊢
  omega

theorem ReadAs.exists_iref {layout : MetaLayout} {f : MetaFile} (h : ReadAs bytes layout f) :
    ∃ iref : Option Atom, f.children.filter (fun a => a.kind = ascii "iref") = iref.toList ∧
      layout.iref.map (bodyOf bytes) = iref.map (·.body) ∧ ∀ a ∈ iref, a.wide = false := by
  have hfound := h.iref
  cases hopt : layout.iref with
  | none =>
      rw [hopt, Option.toList_none] at hfound
      have hholds := filter_holds f.holds_boxes (ascii "iref")
      rw [hfound] at hholds
      exact ⟨none, List.forall₂_nil_left_iff.mp hholds, rfl, nofun⟩
  | some box =>
      rw [hopt, Option.toList_some] at hfound
      obtain ⟨a, ha, hbox⟩ := h.exists_holds hfound
      refine ⟨some a, ha, congrArg some hbox.body, fun a' ha' => ?_⟩
      rw [← Option.mem_some_iff.mp ha']
      exact wide_of_headerSize hbox (h.narrow_iref box (by rw [hopt]; rfl))

theorem map_bodyOf_of_irefReadAs {iref : Option RawBox} {a : Option Atom}
    (h : IrefReadAs bytes iref a) : iref.map (bodyOf bytes) = a.map (·.body) := by
  cases iref <;> cases a
  · rfl
  · exact h.elim
  · exact h.elim
  · exact congrArg some (Holds.body h)

/-- The item that is located is the one asked for. -/
theorem itemId_of_locateItem {items : List IlocItem} {itemId : Nat} {location : XmpLocation}
    (h : locateItem bytes items itemId = some location) : location.itemId = itemId := by
  unfold locateItem at h
  simp only [Option.bind_eq_bind, Option.bind_eq_some_iff, Option.ite_none_right_eq_some,
    Option.some.injEq] at h
  obtain ⟨_, -, _, -, _, -, _, -, -, rfl⟩ := h
  rfl

theorem length_encodeItems_congr {w : IlocWidths} {before after : List ItemEntry}
    {e e' : ItemEntry} (h : e'.extents.length = e.extents.length) :
    (w.encodeItems (before ++ e' :: after)).length =
      (w.encodeItems (before ++ e :: after)).length := by
  simp only [IlocWidths.encodeItems_append, IlocWidths.encodeItems_cons, List.length_append,
    w.length_encodeItem, h]

/-! ## an item that is pointed elsewhere -/

theorem filter_iloc_replaced {before after : List Atom} {old iloc : Atom} {kind : List UInt8}
    (hold : old.kind = ascii "iloc") (hiloc : iloc.kind = ascii "iloc")
    (hkind : kind ≠ ascii "iloc") :
    (before ++ iloc :: after).filter (fun a => a.kind = kind) =
      (before ++ old :: after).filter (fun a => a.kind = kind) := by
  have hnot (a : Atom) (ha : a.kind = ascii "iloc") : ¬ decide (a.kind = kind) = true := fun heq =>
    hkind ((of_decide_eq_true heq).symm.trans ha)
  rw [List.filter_append, List.filter_append, List.filter_cons, List.filter_cons,
    if_neg (hnot iloc hiloc), if_neg (hnot old hold)]

/-- **An item that is pointed at the appended packet** is read as that packet. -/
theorem settled_of_repointed {input xmp output newIloc appended : List UInt8} {layout : MetaLayout}
    {located : LocatedXmp} {location : XmpLocation} {f : MetaFile} {b : IlocBody}
    (h : ReadAs input layout f) (hlen : output.length < 2 ^ 64)
    (hoffset : input.length + 8 < 2 ^ 64) (heif : isHeifContent input = true)
    (hsize : layout.meta.size < 2 ^ 24) (hl : Located input layout located b.layout)
    (hbody : bodyOf input layout.iloc = b.encode)
    (hexisting : located.existing = some location)
    (hclear : ∀ e ∈ b.items, e.Clear input.length layout.meta.start layout.meta.stop)
    (hiloc : rewriteExistingIloc input layout.iloc b.layout location.itemId (input.length + 8)
      xmp.length = .ok newIloc)
    (happended : boxWithBody (ascii "mdat") xmp = .ok appended)
    (hout : output = input.take layout.iloc.start ++ newIloc ++ input.drop layout.iloc.stop ++
      appended) :
    ∃ layout' f' iloc' located' location', ReadAs output layout' f' ∧
      Settled output xmp layout' iloc' located' location' ∧
      layout'.meta.size = layout.meta.size := by
  obtain ⟨mdat, hmdatKind, hmdatWide, hmdatBody, rfl⟩ := exists_of_boxWithBody (by decide) happended
  obtain ⟨old, holdFilter, hold⟩ := h.exists_holds h.iloc
  have hkind : layout.iloc.kind = ascii "iloc" := by
    have hmem : layout.iloc ∈ f.boxes.filter (fun b => b.kind = ascii "iloc") := by
      rw [h.iloc]
      simp
    exact of_decide_eq_true (List.mem_filter.mp hmem).2
  have hxmp : xmp.length < 2 ^ 64 := by
    simp only [boxWithBody, bind_eq_ok, require_eq_ok, checkedAdd_eq_some] at happended
    obtain ⟨_, ⟨hlt, -⟩, -⟩ := happended
    omega
  have hilocLe := hold.stop_le_length
  have hilocSize : layout.iloc.size = 8 + b.encode.length := by
    rw [hold.size, Atom.size, ← hold.headerSize, h.narrow.2, ← hold.body, hbody]
  have hstop : layout.iloc.stop = layout.iloc.start + layout.iloc.size := rfl
  have hmdatSize : mdat.size = xmp.length + 8 := by
    rw [Atom.size, Atom.headerSize, hmdatWide, hmdatBody]
    exact Nat.add_comm _ _
  obtain ⟨before, after, e, x, base, offset, b', hitems, hid, hmethod, hsum, hw, hitems', hbox⟩ :=
    rewriteExistingIloc_eq_ok hbody hoffset hxmp hiloc
  obtain ⟨iloc, hilocKind, hilocWide, hilocBody, rfl⟩ :=
    exists_of_boxWithBody (by rw [hkind]; decide) hbox
  rw [hkind] at hilocKind
  have hencode : b'.encode.length = b.encode.length := by
    rw [b'.length_encode, b.length_encode, IlocBody.itemsStart, IlocBody.itemsStart, hw, hitems',
      hitems]
    exact congrArg _ (length_encodeItems_congr rfl)
  have hilocSize' : iloc.size = layout.iloc.size := by
    rw [Atom.size, Atom.headerSize, hilocWide, hilocBody, hencode, hilocSize]
    rfl
  obtain ⟨f', front, back, old', hbytes, hbefore, hlead, hchildren, hchildren', hafter, holdKind,
    hothers, hmeta⟩ := @exists_file_of_repointed _ _ _ h _ mdat hilocSize'
  rw [← hout] at hbytes
  have hlength : output.length = input.length + 8 + xmp.length := by
    rw [hout]
    simp only [List.length_append, List.length_take, List.length_drop, Atom.length_encode,
      hilocSize', hmdatSize]
    omega
  obtain ⟨iinf, hiinfFilter, hiinf⟩ := h.exists_holds h.iinf
  obtain ⟨iref, hirefFilter, hirefBody, hirefWide⟩ := h.exists_iref
  have hkept {kind : List UInt8} (hne : kind ≠ ascii "iloc") :
      f'.children.filter (fun a => a.kind = kind) = f.children.filter (fun a => a.kind = kind) := by
    rw [hchildren, hchildren', filter_iloc_replaced holdKind hilocKind hne]
  have hfirst : ∀ c rest, f.children = c :: rest → c.kind = ascii "hdlr" →
      ∃ rest', f'.children = c :: rest' := by
    intro c rest hcons hc
    rw [hchildren] at hcons
    cases front with
    | nil =>
        rw [List.nil_append, List.cons.injEq] at hcons
        rw [← hcons.1, holdKind] at hc
        exact absurd hc (by decide)
    | cons c' front =>
        rw [List.cons_append, List.cons.injEq] at hcons
        rw [hchildren', List.cons_append, hcons.1]
        exact ⟨_, rfl⟩
  have hnone {part : List Atom} (hpart : ∀ a ∈ part, a.kind ≠ ascii "iloc") :
      part.filter (fun a => a.kind = ascii "iloc") = [] :=
    List.filter_eq_nil_iff.mpr fun a ha heq => hpart a ha (of_decide_eq_true heq)
  rw [List.forall_mem_append] at hothers
  obtain ⟨layout', hedited⟩ := @exists_edited _ _ _ _ iinf iloc iref h hbefore
    hlead (by
      rw [hafter, List.forall_mem_append]
      refine ⟨fun a ha => h.alone a (List.mem_append_right _ ha), ?_⟩
      rw [List.forall_mem_singleton, hmdatKind]
      decide) hfirst ((hkept (by decide)).trans hiinfFilter) (by
      rw [hchildren', List.filter_append, List.filter_cons, if_pos (decide_eq_true hilocKind),
        hnone hothers.1, hnone hothers.2]
      rfl) ((hkept (by decide)).trans hirefFilter) (hkept (by decide))
    ⟨wide_of_headerSize hiinf h.narrow.1, hilocWide⟩ hirefWide
  have hread := hedited.readAs
  have hiinf' := hedited.iinf.body
  have hiloc' := hedited.iloc.body
  have hiref' := map_bodyOf_of_irefReadAs hedited.iref
  rw [hbytes] at hread hiinf' hiloc' hiref'
  have hmeta' : layout'.meta.size = layout.meta.size := by
    rw [hread.metaSize_eq, hmeta]
  have hlocation : located.xmpItemId = some location.itemId := by
    have hbind := hl.existing
    rw [hexisting] at hbind
    obtain ⟨itemId, hselected, hlocate⟩ := Option.bind_eq_some_iff.mp hbind.symm
    rw [hselected, itemId_of_locateItem hlocate]
  have hknown : ∀ e ∈ b.items, e.itemId ∈ located.iinf.itemIds := by
    intro e he
    obtain ⟨pos, hpos⟩ := @mem_itemsAt_of_mem b.w b.itemsStart _ _ he
    exact hl.known _ hpos
  rw [hitems, List.forall_mem_append, List.forall_mem_cons] at hknown hclear
  obtain ⟨located', location', hsettled⟩ := @settled_of_appended _ _ _ _ _ _ located.iinf b' _ _
    { e with baseOffset := base, extents := [⟨x.index, offset, xmp.length⟩] } _ hread hlen
    (hbytes ▸ isHeifContent_of_before h heif hsize hbefore) hafter hmdatKind hmdatWide hmdatBody
    (by rw [← hl.parseIinf_eq, parseIinf, parseIinf, hiinf', hiinf.body])
    (hiloc'.trans hilocBody)
    (by
      rw [hitems', List.forall_mem_append, List.forall_mem_cons]
      exact ⟨hknown.1, hknown.2.1, hknown.2.2⟩)
    (by
      rw [selectXmpItemId_congr (hiref'.trans hirefBody.symm), hedited.primaryItemId, hl.selected,
        hlocation, hid]) hitems' rfl hmethod
    (by
      show base + offset + xmp.length = _
      rw [hsum, hlength]) rfl (by
      have hrange : output.length - xmp.length - 8 = input.length := by omega
      have hmetaStop : layout'.meta.stop = layout.meta.stop := by
        rw [RawBox.stop, RawBox.stop, hedited.metaStart, hmeta']
      rw [hrange, hedited.metaStart, hmetaStop, List.forall_mem_append]
      exact ⟨hclear.1, hclear.2.2⟩)
  exact ⟨layout', f', _, located', location', hread, hsettled, hmeta'⟩

end Kei.Heif
