import Kei.Heif.Insertion
import Kei.Heif.Files

/-!
# Kei.Heif.Edits

The files that a rewrite makes, as data.

A rewrite puts new boxes in place of `iinf`, `iref` and `iloc` and an `mdat`
box behind the last.  Its output is the bytes of the file with those boxes,
whose layout is that of the input with the new boxes in it.
-/

namespace Kei.Heif

open Bytes Fallible

/-! ## boxes that are made -/

theorem exists_of_boxWithBody {kind body bytes : List UInt8} (hkind : kind.length = 4)
    (h : boxWithBody kind body = .ok bytes) :
    ∃ a : Atom, a.kind = kind ∧ a.wide = false ∧ a.body = body ∧ bytes = a.encode := by
  simp only [boxWithBody, bind_eq_ok, require_eq_ok, checkedAdd_eq_some, ensure_eq_ok,
    pure_eq_ok] at h
  obtain ⟨_, ⟨-, rfl⟩, -, hlt, rfl⟩ := h
  refine ⟨⟨kind, false, body, hkind, by simpa using hlt⟩, rfl, rfl, rfl, ?_⟩
  simp [Atom.encode, Atom.header, Atom.size, Atom.headerSize, Nat.add_comm]

/-- The boxes that stand for one of `meta`. -/
def substitute (iinf iref iloc : List Atom) (a : Atom) : List Atom :=
  if a.kind = ascii "iinf" then iinf
  else if a.kind = ascii "iref" then iref
  else if a.kind = ascii "iloc" then iloc
  else [a]

theorem flatMap_ite_nil {α β : Type} (p : α → Prop) [DecidablePred p] (l : List α)
    (c : List β) :
    l.flatMap (fun a => if p a then c else []) =
      (l.filter (fun a => p a)).flatMap (fun _ => c) := by
  induction l with
  | nil => rfl
  | cons a l ih =>
      rw [List.flatMap_cons, ih, List.filter_cons]
      by_cases hp : p a <;> simp [hp]

theorem flatMap_ite_singleton {α : Type} (p : α → Prop) [DecidablePred p] (l : List α) :
    l.flatMap (fun a => if p a then [a] else []) = l.filter (fun a => p a) := by
  induction l with
  | nil => rfl
  | cons a l ih =>
      rw [List.flatMap_cons, ih, List.filter_cons]
      by_cases hp : p a <;> simp [hp]

variable {atoms : List Atom}

theorem filter_eq_self_of_kind {kind : List UInt8} (h : ∀ a ∈ atoms, a.kind = kind) :
    atoms.filter (fun a => a.kind = kind) = atoms :=
  List.filter_eq_self.mpr fun a ha => decide_eq_true (h a ha)

theorem filter_eq_nil_of_kind {kind kind' : List UInt8} (hne : kind ≠ kind')
    (h : ∀ a ∈ atoms, a.kind = kind) : atoms.filter (fun a => a.kind = kind') = [] :=
  List.filter_eq_nil_iff.mpr fun a ha heq =>
    hne ((h a ha).symm.trans (of_decide_eq_true heq))

section substitute

variable {iinf iloc : Atom} {irefs irefs' : List Atom} {children : List Atom}

theorem filter_substitute (hiinf : iinf.kind = ascii "iinf")
    (hextra : ∀ a ∈ irefs', a.kind = ascii "iref") (hiref : ∀ a ∈ irefs, a.kind = ascii "iref")
    (hiloc : iloc.kind = ascii "iloc") (a : Atom) :
    let boxes := substitute (iinf :: irefs') irefs [iloc] a
    boxes.filter (fun a => a.kind = ascii "iinf") =
        (if a.kind = ascii "iinf" then [iinf] else []) ∧
      boxes.filter (fun a => a.kind = ascii "iloc") =
        (if a.kind = ascii "iloc" then [iloc] else []) ∧
      boxes.filter (fun a => a.kind = ascii "pitm") =
        (if a.kind = ascii "pitm" then [a] else []) ∧
      boxes.filter (fun a => a.kind = ascii "iref") =
        (if a.kind = ascii "iinf" then irefs' else []) ++
          (if a.kind = ascii "iref" then irefs else []) := by
  intro boxes
  have hnone := fun (atoms : List Atom) (h : ∀ a ∈ atoms, a.kind = ascii "iref") =>
    And.intro (filter_eq_nil_of_kind (by decide : ascii "iref" ≠ ascii "iinf") h)
      (And.intro (filter_eq_nil_of_kind (by decide : ascii "iref" ≠ ascii "iloc") h)
        (filter_eq_nil_of_kind (by decide : ascii "iref" ≠ ascii "pitm") h))
  obtain ⟨he1, he2, he3⟩ := hnone irefs' hextra
  obtain ⟨hr1, hr2, hr3⟩ := hnone irefs hiref
  have h12 : ascii "iinf" ≠ ascii "iloc" := by decide
  have h13 : ascii "iinf" ≠ ascii "pitm" := by decide
  have h14 : ascii "iinf" ≠ ascii "iref" := by decide
  have h23 : ascii "iloc" ≠ ascii "pitm" := by decide
  have h24 : ascii "iloc" ≠ ascii "iref" := by decide
  have h34 : ascii "pitm" ≠ ascii "iref" := by decide
  by_cases hk1 : a.kind = ascii "iinf"
  · simp [boxes, substitute, hk1, hiinf, he1, he2, he3, h12, h13, h14,
      filter_eq_self_of_kind hextra]
  · by_cases hk2 : a.kind = ascii "iref"
    · simp [boxes, substitute, hk2, hr1, hr2, hr3, h14.symm, h24.symm, h34.symm,
        filter_eq_self_of_kind hiref]
    · by_cases hk3 : a.kind = ascii "iloc"
      · simp [boxes, substitute, hk3, hiloc, h12.symm, h23, h24]
      · simp [boxes, substitute, hk1, hk2, hk3, List.filter_cons]

theorem filter_flatMap_substitute (hiinf : iinf.kind = ascii "iinf")
    (hextra : ∀ a ∈ irefs', a.kind = ascii "iref") (hiref : ∀ a ∈ irefs, a.kind = ascii "iref")
    (hiloc : iloc.kind = ascii "iloc") {oldIinf oldIloc : Atom}
    (holdIinf : children.filter (fun a => a.kind = ascii "iinf") = [oldIinf])
    (holdIloc : children.filter (fun a => a.kind = ascii "iloc") = [oldIloc]) :
    let children' := children.flatMap (substitute (iinf :: irefs') irefs [iloc])
    children'.filter (fun a => a.kind = ascii "iinf") = [iinf] ∧
      children'.filter (fun a => a.kind = ascii "iloc") = [iloc] ∧
      children'.filter (fun a => a.kind = ascii "pitm") =
        children.filter (fun a => a.kind = ascii "pitm") := by
  intro children'
  have hsub := filter_substitute hiinf hextra hiref hiloc
  refine ⟨?_, ?_, ?_⟩
  · rw [List.filter_flatMap, funext fun a => (hsub a).1, flatMap_ite_nil, holdIinf]
    rfl
  · rw [List.filter_flatMap, funext fun a => (hsub a).2.1, flatMap_ite_nil, holdIloc]
    rfl
  · rw [List.filter_flatMap, funext fun a => (hsub a).2.2.1, flatMap_ite_singleton]

theorem filter_iref_of_some (hiinf : iinf.kind = ascii "iinf")
    (hiref : ∀ a ∈ irefs, a.kind = ascii "iref") (hiloc : iloc.kind = ascii "iloc") :
    (children.flatMap (substitute [iinf] irefs [iloc])).filter (fun a => a.kind = ascii "iref") =
      (children.filter (fun a => a.kind = ascii "iref")).flatMap (fun _ => irefs) := by
  have hsub := @filter_substitute _ _ _ [] hiinf nofun hiref hiloc
  rw [List.filter_flatMap, funext fun a => (hsub a).2.2.2]
  simp only [ite_self, List.nil_append]
  exact flatMap_ite_nil _ _ _

theorem filter_iref_of_none (hiinf : iinf.kind = ascii "iinf")
    (hextra : ∀ a ∈ irefs', a.kind = ascii "iref") (hiref : ∀ a ∈ irefs, a.kind = ascii "iref")
    (hiloc : iloc.kind = ascii "iloc") {oldIinf : Atom}
    (holdIinf : children.filter (fun a => a.kind = ascii "iinf") = [oldIinf])
    (hnone : children.filter (fun a => a.kind = ascii "iref") = []) :
    (children.flatMap (substitute (iinf :: irefs') irefs [iloc])).filter
      (fun a => a.kind = ascii "iref") = irefs' := by
  have hsub := filter_substitute hiinf hextra hiref hiloc
  rw [List.filter_flatMap, funext fun a => (hsub a).2.2.2]
  have hcongr : children.flatMap (fun a => (if a.kind = ascii "iinf" then irefs' else []) ++
      (if a.kind = ascii "iref" then irefs else [])) =
      children.flatMap (fun a => if a.kind = ascii "iinf" then irefs' else []) := by
    rw [List.flatMap_def, List.flatMap_def]
    refine congrArg _ (List.map_congr_left fun a ha => ?_)
    have hne : a.kind ≠ ascii "iref" := fun heq =>
      List.filter_eq_nil_iff.mp hnone a ha (decide_eq_true heq)
    rw [if_neg hne, List.append_nil]
  rw [hcongr, flatMap_ite_nil, holdIinf]
  simp

end substitute

/-! ## the layout of an edited file -/

/-- The new `iref` box is read as it was made. -/
def IrefReadAs (bytes : List UInt8) (iref : Option RawBox) (a : Option Atom) : Prop :=
  match iref, a with
  | none, none => True
  | some box, some a => Holds bytes box a
  | _, _ => False

/-- What is read of the file with other boxes in `meta`. -/
structure Edited (layout : MetaLayout) (f : MetaFile) (iinf iloc : Atom) (iref : Option Atom)
    (layout' : MetaLayout) : Prop where
  readAs : ReadAs f.bytes layout' f
  primaryItemId : layout'.primaryItemId = layout.primaryItemId
  metaStart : layout'.meta.start = layout.meta.start
  iinf : Holds f.bytes layout'.iinf iinf
  iloc : Holds f.bytes layout'.iloc iloc
  iref : IrefReadAs f.bytes layout'.iref iref

theorem exists_edited {bytes : List UInt8} {layout : MetaLayout} {f f' : MetaFile}
    {iinf iloc : Atom} {iref : Option Atom} (h : ReadAs bytes layout f)
    (hbefore : f'.before = f.before) (hlead : f'.lead = f.lead)
    (hafter : ∀ a ∈ f'.after, a.kind ≠ ascii "meta")
    (hfirst : ∀ c rest, f.children = c :: rest → c.kind = ascii "hdlr" →
      ∃ rest', f'.children = c :: rest')
    (hiinf : f'.children.filter (fun a => a.kind = ascii "iinf") = [iinf])
    (hiloc : f'.children.filter (fun a => a.kind = ascii "iloc") = [iloc])
    (hiref : f'.children.filter (fun a => a.kind = ascii "iref") = iref.toList)
    (hpitm : f'.children.filter (fun a => a.kind = ascii "pitm") =
      f.children.filter (fun a => a.kind = ascii "pitm"))
    (hnarrow : iinf.wide = false ∧ iloc.wide = false) (hnarrow' : ∀ a ∈ iref, a.wide = false) :
    ∃ layout', Edited layout f' iinf iloc iref layout' := by
  have hfound {kind : List UInt8} {a : Atom}
      (ha : f'.children.filter (fun a => a.kind = kind) = [a]) :
      ∃ box, f'.boxes.filter (fun b => b.kind = kind) = [box] ∧ Holds f'.bytes box a := by
    have hholds := filter_holds f'.holds_boxes kind
    rw [ha] at hholds
    obtain ⟨box, boxes, hbox, hboxes, heq⟩ := List.forall₂_cons_right_iff.mp hholds
    rw [List.forall₂_nil_right_iff.mp hboxes] at heq
    exact ⟨box, heq, hbox⟩
  have hheader {box : RawBox} {a : Atom} (hbox : Holds f'.bytes box a) (hwide : a.wide = false) :
      box.headerSize = 8 := by
    rw [hbox.headerSize, Atom.headerSize, hwide]
    rfl
  obtain ⟨iinfBox, hiinfBox, hiinfHolds⟩ := hfound hiinf
  obtain ⟨ilocBox, hilocBox, hilocHolds⟩ := hfound hiloc
  obtain ⟨pitm, hpitmBox, hprimary⟩ := h.pitm
  obtain ⟨p, hp, hpHolds⟩ := h.exists_holds hpitmBox
  obtain ⟨pitm', hpitmBox', hpHolds'⟩ := hfound (hpitm.trans hp)
  have hprimary' : parsePrimaryItemId f'.bytes pitm' = .ok layout.primaryItemId := by
    rw [← hprimary]
    unfold parsePrimaryItemId
    rw [hpHolds.body, hpHolds'.body]
  obtain ⟨irefBox, hirefBox, hirefRead, hirefHeader⟩ :
      ∃ box : Option RawBox, f'.boxes.filter (fun b => b.kind = ascii "iref") = box.toList ∧
        IrefReadAs f'.bytes box iref ∧ ∀ b ∈ box, b.headerSize = 8 := by
    cases iref with
    | none =>
        have hholds := filter_holds f'.holds_boxes (ascii "iref")
        rw [hiref] at hholds
        exact ⟨none, List.forall₂_nil_right_iff.mp hholds, trivial, by simp⟩
    | some a =>
        obtain ⟨box, hbox, hholds⟩ := hfound hiref
        refine ⟨some box, hbox, hholds, fun b hb => ?_⟩
        rw [← Option.mem_some_iff.mp hb]
        exact hheader hholds (hnarrow' a rfl)
  have hstart : f'.metaStart = f.metaStart := by rw [MetaFile.metaStart, hbefore]; rfl
  refine ⟨⟨f'.metaAtom.rawBox f'.metaStart, iinfBox, ilocBox, irefBox, layout.primaryItemId,
    f'.lead.length⟩, ⟨rfl, ?_, rfl, rfl, ?_, ?_, hiinfBox, hilocBox, hirefBox,
      ⟨pitm', hpitmBox', hprimary'⟩,
      ⟨hheader hiinfHolds hnarrow.1, hheader hilocHolds hnarrow.2⟩, hirefHeader⟩, rfl, ?_,
    hiinfHolds, hilocHolds, hirefRead⟩
  · rw [List.forall_mem_append, hbefore]
    exact ⟨fun a ha => h.alone a (List.mem_append_left _ ha), hafter⟩
  · rw [hlead]
    exact h.lead
  · obtain ⟨c, rest, hchildren, hkind, hnot⟩ := h.first
    obtain ⟨rest', hrest'⟩ := hfirst c rest hchildren hkind
    exact ⟨c, rest', hrest', hkind, by rwa [hlead]⟩
  · rw [h.meta_eq]
    exact hstart

/-! ## the children of `meta` by position -/

theorem eight_le_size_of_mem_rawBoxes {start : Nat} {box : RawBox}
    (h : box ∈ rawBoxes start atoms) : 8 ≤ box.size := by
  obtain ⟨before, a, after, -, rfl⟩ := exists_of_mem_rawBoxes h
  exact a.eight_le_size

theorem eq_of_start_eq {boxes : List RawBox} {box box' : RawBox}
    (hordered : boxes.Pairwise (fun box box' => box.stop ≤ box'.start))
    (hsize : ∀ box ∈ boxes, 8 ≤ box.size) (hbox : box ∈ boxes) (hbox' : box' ∈ boxes)
    (h : box.start = box'.start) : box = box' := by
  induction hordered with
  | nil => cases hbox
  | cons hfirst _ ih =>
      rw [List.forall_mem_cons] at hsize
      have hstop := hsize.1
      rcases List.mem_cons.mp hbox with rfl | hmem <;>
        rcases List.mem_cons.mp hbox' with rfl | hmem'
      · rfl
      · have hle := hfirst _ hmem'
        unfold RawBox.stop at hle
        omega
      · have hle := hfirst _ hmem
        unfold RawBox.stop at hle
        omega
      · exact ih hsize.2 hmem hmem'

theorem start_eq_iff {f : MetaFile} {kind : List UInt8} {only box : RawBox}
    (honly : f.boxes.filter (fun b => b.kind = kind) = [only]) (hbox : box ∈ f.boxes) :
    box.start = only.start ↔ box.kind = kind := by
  obtain ⟨hmem, hkind⟩ := List.mem_filter.mp (show only ∈ f.boxes.filter _ by rw [honly]; simp)
  constructor
  · intro hstart
    rw [eq_of_start_eq (pairwise_rawBoxes _ _) (fun _ => eight_le_size_of_mem_rawBoxes) hbox hmem
      hstart]
    exact of_decide_eq_true hkind
  · intro heq
    have hfound : box ∈ f.boxes.filter (fun b => b.kind = kind) :=
      List.mem_filter.mpr ⟨hbox, decide_eq_true heq⟩
    rw [honly, List.mem_singleton] at hfound
    rw [hfound]

theorem newMetaChild_eq {input : List UInt8} {layout : MetaLayout} {f : MetaFile}
    {iinf iref iloc a : Atom} {box : RawBox} (h : ReadAs input layout f) (hbox : box ∈ f.boxes)
    (ha : Holds input box a) :
    newMetaChild input layout iinf.encode iref.encode iloc.encode box =
      encodeAll
        (substitute (iinf :: if layout.iref.isNone then [iref] else []) [iref] [iloc] a) := by
  have hiref : (layout.iref.any fun existing => existing.start = box.start) = true ↔
      a.kind = ascii "iref" := by
    have hfound := h.iref
    rw [← ha.kind]
    cases hopt : layout.iref with
    | none =>
        rw [hopt, Option.toList_none, List.filter_eq_nil_iff] at hfound
        simpa using hfound box hbox
    | some only =>
        rw [hopt, Option.toList_some] at hfound
        rw [← start_eq_iff hfound hbox, eq_comm (a := box.start)]
        simp
  unfold newMetaChild substitute
  simp only [start_eq_iff h.iinf hbox, start_eq_iff h.iloc hbox, hiref, ha.kind,
    ha.slice_start_stop]
  by_cases hk1 : a.kind = ascii "iinf"
  · rw [if_pos hk1, if_pos hk1]
    cases layout.iref <;> simp
  · rw [if_neg hk1, if_neg hk1]
    by_cases hk2 : a.kind = ascii "iref"
    · simp [hk2]
    · rw [if_neg hk2, if_neg hk2]
      by_cases hk3 : a.kind = ascii "iloc" <;> simp [hk3]

theorem flatMap_newMetaChild {input : List UInt8} {layout : MetaLayout} {f : MetaFile}
    {iinf iref iloc : Atom} (h : ReadAs input layout f) :
    f.boxes.flatMap (newMetaChild input layout iinf.encode iref.encode iloc.encode) =
      encodeAll (f.children.flatMap
        (substitute (iinf :: if layout.iref.isNone then [iref] else []) [iref] [iloc])) := by
  have hholds := f.holds_boxes
  rw [h.bytes_eq] at hholds
  suffices hall : ∀ boxes children, List.Forall₂ (Holds input) boxes children →
      (∀ box ∈ boxes, box ∈ f.boxes) →
      boxes.flatMap (newMetaChild input layout iinf.encode iref.encode iloc.encode) =
        encodeAll (children.flatMap
          (substitute (iinf :: if layout.iref.isNone then [iref] else []) [iref] [iloc])) from
    hall _ _ hholds fun _ => id
  intro boxes children hholds hmem
  induction hholds with
  | nil => rfl
  | cons hfirst _ ih =>
      rw [List.forall_mem_cons] at hmem
      rw [List.flatMap_cons, List.flatMap_cons, encodeAll_append, ih hmem.2,
        newMetaChild_eq h hmem.1 hfirst]

/-! ## the files that are made -/

theorem patchBoxSize_eq_ok {kind body bytes : List UInt8} {size : Nat} (hkind : kind.length = 4)
    (h : patchBoxSize (toBe 4 size ++ kind ++ body) = .ok bytes) :
    ∃ a : Atom, a.kind = kind ∧ a.wide = false ∧ a.body = body ∧ bytes = a.encode := by
  simp only [patchBoxSize, bind_eq_ok, ensure_eq_ok, pure_eq_ok] at h
  obtain ⟨-, hlt, -, -, rfl⟩ := h
  have hlen : (toBe 4 size ++ kind ++ body).length = body.length + 8 := by
    simp only [List.length_append, length_toBe, hkind]
    omega
  rw [hlen] at hlt ⊢
  refine ⟨⟨kind, false, body, hkind, by simpa using hlt⟩, rfl, rfl, rfl, ?_⟩
  have hover := @overwrite_append_mid _ [] (toBe 4 size) (toBe 4 (body.length + 8)) (kind ++ body)
    0 rfl (by simp)
  rw [List.append_assoc, show toBe 4 size ++ (kind ++ body) = [] ++ toBe 4 size ++ (kind ++ body)
    from rfl, hover]
  simp [Atom.encode, Atom.header, Atom.size, Atom.headerSize, Nat.add_comm]

namespace ReadAs

variable {bytes : List UInt8} {layout : MetaLayout} {f : MetaFile} (h : ReadAs bytes layout f)

include h

theorem metaStart_eq : layout.meta.start = f.metaStart := by
  rw [h.meta_eq]
  rfl

theorem take_metaStart : bytes.take layout.meta.start = encodeAll f.before := by
  rw [← h.bytes_eq, h.metaStart_eq, MetaFile.bytes, MetaFile.top, encodeAll_append]
  exact List.take_left

theorem drop_metaStop : bytes.drop layout.meta.stop = encodeAll f.after := by
  rw [← h.bytes_eq, h.metaStop_eq, f.metaStop_eq, ← List.drop_drop, f.drop_childrenStart,
    List.drop_left]

theorem slice_lead : slice bytes layout.meta.start (layout.meta.bodyStart + layout.prefixSize) =
    f.metaAtom.header ++ f.lead := by
  have hparts := f.bytes_eq
  rw [List.append_assoc, List.append_assoc, List.append_assoc] at hparts
  rw [h.childrenStart_eq, h.metaStart_eq, ← h.bytes_eq, hparts, slice,
    show f.metaStart = (encodeAll f.before).length from rfl, List.drop_left, ← List.append_assoc]
  refine List.take_left' ?_
  have hlen := f.length_before_header
  rw [List.append_assoc, List.length_append] at hlen
  omega

end ReadAs

theorem newMetaLen_congr {layout : MetaLayout} {newIinf newIref newIloc newIloc' : List UInt8}
    (h : newIloc.length = newIloc'.length) :
    newMetaLen layout newIinf newIref newIloc = newMetaLen layout newIinf newIref newIloc' := by
  unfold newMetaLen
  rw [h]

/-- What an insertion makes is a file, with the new boxes in `meta` and the packet behind the
last box. -/
theorem exists_file_of_parts {input xmp output : List UInt8} {layout : MetaLayout}
    {iloc : IlocLayout} {located : LocatedXmp} {f : MetaFile} (h : ReadAs input layout f)
    (parts : InsertionParts input xmp layout iloc located output) {iinf iref newIloc : Atom}
    (hiinf : parts.newIinf = iinf.encode) (hiref : parts.newIref = iref.encode)
    (hiloc : parts.newIloc = newIloc.encode)
    (hlen : parts.placeholderIloc.length = parts.newIloc.length) :
    ∃ (f' : MetaFile) (mdat : Atom), f'.bytes = output ∧ f'.before = f.before ∧
      f'.lead = f.lead ∧ f'.children = f.children.flatMap
        (substitute (iinf :: if layout.iref.isNone then [iref] else []) [iref] [newIloc]) ∧
      f'.after = f.after ++ [mdat] ∧ mdat.kind = ascii "mdat" ∧ mdat.wide = false ∧
      mdat.body = xmp ∧ f'.metaAtom.size = layout.meta.size + parts.delta := by
  let children' := f.children.flatMap
    (substitute (iinf :: if layout.iref.isNone then [iref] else []) [iref] [newIloc])
  have hchildren : parts.children = f.boxes := by
    have hscan := h.scan_children (Nat.lt_of_le_of_lt (by omega) parts.offset_lt)
    rw [parts.children_eq] at hscan
    exact Except.ok.inj hscan
  have hpatch := parts.meta_eq
  rw [hchildren, hiinf, hiref, hiloc, flatMap_newMetaChild h, h.slice_lead, List.append_assoc,
    show f.metaAtom.header = toBe 4 f.metaAtom.size ++ ascii "meta" from rfl] at hpatch
  obtain ⟨m, hmkind, hmwide, hmbody, hmbytes⟩ := patchBoxSize_eq_ok (by decide) hpatch
  obtain ⟨mdat, hkind, hwide, hbody, happended⟩ :=
    exists_of_boxWithBody (by decide) parts.appended_eq
  let f' : MetaFile := ⟨f.before, f.lead, children', f.after ++ [mdat], by
    have hfits := m.fits
    rwa [hmwide, if_neg (by decide), hmbody, List.length_append] at hfits⟩
  have hm : f'.metaAtom = m := Atom.ext hmkind.symm hmwide.symm hmbody.symm
  refine ⟨f', mdat, ?_, rfl, rfl, rfl, rfl, hkind, hwide, hbody, ?_⟩
  · rw [parts.output_eq, h.take_metaStart, h.drop_metaStop, hmbytes, happended, MetaFile.bytes,
      MetaFile.top, hm]
    simp [f']
  · have hsize := parts.length_meta
    have hnew := parts.newLen_eq
    rw [← newMetaLen_congr hlen, parts.delta_eq, Option.some.injEq] at hnew
    rw [hm, hnew, ← hsize, hmbytes, m.length_encode]

/-- What is made when a packet is pointed elsewhere is a file with another `iloc` box. -/
theorem exists_file_of_repointed {input : List UInt8} {layout : MetaLayout} {f : MetaFile}
    (h : ReadAs input layout f) {iloc mdat : Atom} (hsize : iloc.size = layout.iloc.size) :
    ∃ (f' : MetaFile) (before after : List Atom) (old : Atom),
      f'.bytes = input.take layout.iloc.start ++ iloc.encode ++ input.drop layout.iloc.stop ++
        mdat.encode ∧
      f'.before = f.before ∧ f'.lead = f.lead ∧ f.children = before ++ old :: after ∧
      f'.children = before ++ iloc :: after ∧ f'.after = f.after ++ [mdat] ∧
      old.kind = ascii "iloc" ∧ (∀ a ∈ before ++ after, a.kind ≠ ascii "iloc") ∧
      f'.metaAtom.size = layout.meta.size := by
  obtain ⟨before, old, after, hchildren, hkind, hbox, hothers⟩ := exists_of_filter_rawBoxes h.iloc
  have hold : iloc.size = old.size := by rw [hsize, hbox, Atom.rawBox_size]
  have hlen : (encodeAll (before ++ iloc :: after)).length = (encodeAll f.children).length := by
    rw [hchildren]
    simp [hold]
  let f' : MetaFile := ⟨f.before, f.lead, before ++ iloc :: after, f.after ++ [mdat], by
    rw [hlen]
    exact f.fits⟩
  have hmeta : f'.metaAtom.size = f.metaAtom.size := by
    rw [f'.metaAtom_size, f.metaAtom_size]
    show _ + (encodeAll (before ++ iloc :: after)).length = _
    rw [hlen]
  have hheader : f'.metaAtom.header = f.metaAtom.header := by
    show toBe 4 f'.metaAtom.size ++ ascii "meta" = toBe 4 f.metaAtom.size ++ ascii "meta"
    rw [hmeta]
  have hparts : input = (encodeAll f.before ++ f.metaAtom.header ++ f.lead ++ encodeAll before) ++
      (old.encode ++ (encodeAll after ++ encodeAll f.after)) := by
    rw [← h.bytes_eq, f.bytes_eq, hchildren]
    simp
  have hstart : layout.iloc.start =
      (encodeAll f.before ++ f.metaAtom.header ++ f.lead ++ encodeAll before).length := by
    rw [hbox, Atom.rawBox_start, List.length_append, f.length_before_header]
  have hstop : layout.iloc.stop = layout.iloc.start + old.encode.length := by
    rw [RawBox.stop, ← hsize, hold, old.length_encode]
  refine ⟨f', before, after, old, ?_, rfl, rfl, hchildren, rfl, rfl, hkind, hothers,
    by rw [hmeta, h.metaSize_eq]⟩
  rw [hstop, ← List.drop_drop, hstart, hparts, List.take_left, List.drop_left, List.drop_left,
    f'.bytes_eq, hheader]
  simp [f']

end Kei.Heif
