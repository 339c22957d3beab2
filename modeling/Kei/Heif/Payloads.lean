import Kei.Heif.Edits

/-!
# Kei.Heif.Payloads

Writing over bytes of a box that is not `meta`.

The boxes of the file stay where they are and `meta` keeps its bytes, so that
the layout of the file and its item tables are as they were.
-/

namespace Kei.Heif

open Bytes Fallible

/-! ## one box -/

/-- The box with other bytes in a part of its body. -/
def Atom.patch (a : Atom) (pos : Nat) (new : List UInt8)
    (h : pos + new.length ≤ a.body.length) : Atom where
  kind := a.kind
  wide := a.wide
  body := overwrite a.body pos new
  kind_length := a.kind_length
  fits := by
    rw [length_overwrite h]
    exact a.fits

theorem Atom.size_patch {a : Atom} {pos : Nat} {new : List UInt8}
    (h : pos + new.length ≤ a.body.length) : (a.patch pos new h).size = a.size :=
  congrArg (a.headerSize + ·) (length_overwrite h)

theorem Atom.encode_patch {a : Atom} {pos : Nat} {new : List UInt8}
    (h : pos + new.length ≤ a.body.length) :
    (a.patch pos new h).encode = overwrite a.encode (a.headerSize + pos) new := by
  have hheader : (a.patch pos new h).header = a.header := by
    unfold Atom.header
    rw [size_patch]
    rfl
  rw [encode, encode, hheader, ← a.length_header, overwrite_append_right]
  rfl

/-! ## a box among others -/

/-- The boxes are those of other data at the same positions. -/
structure SamePlaces (atoms atoms' : List Atom) : Prop where
  rawBoxes (start : Nat) : rawBoxes start atoms' = rawBoxes start atoms
  kinds : atoms'.map (·.kind) = atoms.map (·.kind)
  length : (encodeAll atoms').length = (encodeAll atoms).length

/-- A write in the body of a box leaves all boxes at their places. -/
theorem exists_samePlaces {start pos : Nat} {new : List UInt8} {atoms : List Atom} {box : RawBox}
    (hbox : box ∈ rawBoxes start atoms) (hstart : box.bodyStart ≤ start + pos)
    (hstop : start + pos + new.length ≤ box.stop) :
    ∃ atoms', overwrite (encodeAll atoms) pos new = encodeAll atoms' ∧ SamePlaces atoms atoms' := by
  obtain ⟨before, a, after, rfl, rfl⟩ := exists_of_mem_rawBoxes hbox
  rw [Atom.rawBox_bodyStart] at hstart
  rw [Atom.rawBox_stop] at hstop
  obtain ⟨offset, rfl⟩ : ∃ offset, pos = (encodeAll before).length + (a.headerSize + offset) :=
    ⟨pos - ((encodeAll before).length + a.headerSize), by omega⟩
  have hfits : offset + new.length ≤ a.body.length := by
    rw [Atom.size] at hstop
    omega
  have hsize := Atom.size_patch hfits
  refine ⟨before ++ a.patch offset new hfits :: after, ?_, ?_, ?_, ?_⟩
  · rw [encodeAll_append, encodeAll_cons, overwrite_append_right, encodeAll_append, encodeAll_cons,
      Atom.encode_patch hfits, overwrite_append_left]
    rw [a.length_encode, Atom.size]
    omega
  · intro start
    rw [rawBoxes_append, rawBoxes_append, Heif.rawBoxes, Heif.rawBoxes, hsize, Atom.rawBox,
      hsize]
    rfl
  · simp [Atom.patch]
  · simp [hsize]

/-! ## a file -/

theorem ReadAs.of_samePlaces {bytes : List UInt8} {layout : MetaLayout} {f f' : MetaFile}
    (h : ReadAs bytes layout f) (hlead : f'.lead = f.lead) (hchildren : f'.children = f.children)
    (hbefore : SamePlaces f.before f'.before) (hafter : SamePlaces f.after f'.after) :
    ReadAs f'.bytes layout f' := by
  have hmeta : f'.metaAtom = f.metaAtom :=
    Atom.ext rfl rfl (by show f'.lead ++ encodeAll f'.children = _; rw [hlead, hchildren]; rfl)
  have hstart : f'.metaStart = f.metaStart := hbefore.length
  have hboxes : f'.boxes = f.boxes := by
    rw [MetaFile.boxes, MetaFile.boxes, hchildren, MetaFile.childrenStart, MetaFile.childrenStart,
      hstart, hlead]
  obtain ⟨pitm, hpitm, hprimary⟩ := h.pitm
  obtain ⟨p, hp, hpHolds⟩ := h.exists_holds hpitm
  have hprimary' : parsePrimaryItemId f'.bytes pitm = .ok layout.primaryItemId := by
    have hholds := filter_holds f'.holds_boxes (ascii "pitm")
    rw [hboxes, hchildren, hpitm, hp] at hholds
    rw [← hprimary]
    unfold parsePrimaryItemId
    rw [hpHolds.body, (List.forall₂_cons.mp hholds).1.body]
  refine ⟨rfl, ?_, by rw [hmeta, hstart, h.meta_eq], by rw [hlead, h.prefixSize],
    by rw [hlead]; exact h.lead, by rw [hchildren, hlead]; exact h.first,
    by rw [hboxes]; exact h.iinf, by rw [hboxes]; exact h.iloc, by rw [hboxes]; exact h.iref,
    ⟨pitm, by rw [hboxes]; exact hpitm, hprimary'⟩, h.narrow, h.narrow_iref⟩
  intro a ha heq
  have hkinds : (f'.before ++ f'.after).map (·.kind) = (f.before ++ f.after).map (·.kind) := by
    rw [List.map_append, hbefore.kinds, hafter.kinds, List.map_append]
  have hmem : a.kind ∈ (f.before ++ f.after).map (·.kind) := by
    rw [← hkinds]
    exact List.mem_map_of_mem ha
  obtain ⟨a', ha', hkind⟩ := List.mem_map.mp hmem
  exact h.alone a' ha' (hkind.trans heq)

theorem SamePlaces.refl (atoms : List Atom) : SamePlaces atoms atoms :=
  ⟨fun _ => rfl, rfl, rfl⟩

/-- What is left as it was when a box is written over. -/
structure Patched (layout : MetaLayout) (f f' : MetaFile) : Prop where
  readAs : ReadAs f'.bytes layout f'
  children : f'.children = f.children
  boxes : f'.boxes = f.boxes
  top : rawBoxes 0 f'.top = rawBoxes 0 f.top
  length : f'.bytes.length = f.bytes.length

/-- A write in a box that is not `meta` leaves `meta` and the places of the others. -/
theorem exists_patched {bytes new : List UInt8} {layout : MetaLayout} {f : MetaFile} {box : RawBox}
    {pos : Nat} (h : ReadAs bytes layout f) (hbox : box ∈ rawBoxes 0 f.top)
    (hkind : box.kind ≠ ascii "meta") (hstart : box.bodyStart ≤ pos)
    (hstop : pos + new.length ≤ box.stop) :
    ∃ f', f'.bytes = overwrite bytes pos new ∧ Patched layout f f' := by
  have hpatched {f' : MetaFile} (hlead : f'.lead = f.lead) (hchildren : f'.children = f.children)
      (hbefore : SamePlaces f.before f'.before) (hafter : SamePlaces f.after f'.after) :
      Patched layout f f' := by
    have hmeta : f'.metaAtom = f.metaAtom :=
      Atom.ext rfl rfl (by show f'.lead ++ encodeAll f'.children = _; rw [hlead, hchildren]; rfl)
    refine ⟨h.of_samePlaces hlead hchildren hbefore hafter, hchildren, ?_, ?_, ?_⟩
    · rw [MetaFile.boxes, MetaFile.boxes, hchildren, MetaFile.childrenStart,
        MetaFile.childrenStart, hlead, MetaFile.metaStart, MetaFile.metaStart, hbefore.length]
    · rw [MetaFile.top, MetaFile.top, rawBoxes_append, rawBoxes_append, hbefore.rawBoxes,
        hbefore.length, hmeta, rawBoxes, rawBoxes, hafter.rawBoxes]
    · simp only [MetaFile.bytes, MetaFile.top, encodeAll_append, encodeAll_cons, hmeta,
        List.length_append, hbefore.length, hafter.length]
  have hsplit : f.bytes = encodeAll f.before ++ f.metaAtom.encode ++ encodeAll f.after := by
    simp [MetaFile.bytes, MetaFile.top]
  rw [← h.bytes_eq, hsplit]
  rw [MetaFile.top, rawBoxes_append, List.mem_append, rawBoxes, List.mem_cons] at hbox
  rcases hbox with hbox | rfl | hbox
  · have hbound := stop_le_of_mem_rawBoxes hbox
    obtain ⟨before', hwrite, hsame⟩ := @exists_samePlaces 0 pos new _ _ hbox
      (by omega) (by omega)
    refine ⟨⟨before', f.lead, f.children, f.after, f.fits⟩, ?_,
      hpatched rfl rfl hsame (SamePlaces.refl _)⟩
    rw [List.append_assoc, overwrite_append_left _ _ _ (by omega), hwrite]
    simp [MetaFile.bytes, MetaFile.top]
    rfl
  · exact absurd rfl hkind
  · have hle := start_le_of_mem_rawBoxes hbox
    have hbody : box.start ≤ box.bodyStart := Nat.le_add_right _ _
    have hlen : (encodeAll f.before ++ f.metaAtom.encode).length =
        0 + (encodeAll f.before).length + f.metaAtom.size := by
      rw [List.length_append, f.metaAtom.length_encode, Nat.zero_add]
    obtain ⟨offset, rfl⟩ : ∃ offset,
        pos = (encodeAll f.before ++ f.metaAtom.encode).length + offset :=
      ⟨pos - (encodeAll f.before ++ f.metaAtom.encode).length, by omega⟩
    rw [hlen] at hstart hstop
    obtain ⟨after', hwrite, hsame⟩ := exists_samePlaces hbox hstart hstop
    refine ⟨⟨f.before, f.lead, f.children, after', f.fits⟩, ?_,
      hpatched rfl rfl (SamePlaces.refl _) hsame⟩
    rw [overwrite_append_right, hwrite]
    simp [MetaFile.bytes, MetaFile.top]
    rfl

theorem Patched.bodyOf_eq {layout : MetaLayout} {f f' : MetaFile} (h : Patched layout f f')
    {box : RawBox} (hbox : box ∈ f.boxes) : bodyOf f'.bytes box = bodyOf f.bytes box := by
  have hholds' := f'.holds_boxes
  rw [h.boxes, h.children] at hholds'
  have hholds := f.holds_boxes
  obtain ⟨i, hi, rfl⟩ := List.getElem_of_mem hbox
  have hi' : i < f.children.length := by rwa [hholds.length_eq] at hi
  exact (hholds'.get hi hi').body.trans (hholds.get hi hi').body.symm

end Kei.Heif
