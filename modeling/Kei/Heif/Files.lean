import Kei.Heif.Items
import Kei.Heif.Encoded
import Kei.Lib.Traverse

/-!
# Kei.Heif.Files

HEIF files as data: the boxes around `meta`, and the boxes in it.

The layout of a file is found just when its bytes are those of such data, so
that what a rewrite makes of the boxes can be read again from the new bytes.
-/

namespace Kei.Heif

open Bytes Fallible

structure MetaFile where
  before : List Atom
  /-- The version and flags of `meta`, which some writers leave out. -/
  lead : List UInt8
  children : List Atom
  after : List Atom
  fits : lead.length + (encodeAll children).length + 8 < 2 ^ 32

namespace MetaFile

variable (f : MetaFile)

def metaAtom : Atom where
  kind := ascii "meta"
  wide := false
  body := f.lead ++ encodeAll f.children
  kind_length := by decide
  fits := by
    rw [if_neg (by decide), List.length_append]
    exact f.fits

def top : List Atom := f.before ++ f.metaAtom :: f.after

def bytes : List UInt8 := encodeAll f.top

def metaStart : Nat := (encodeAll f.before).length

def childrenStart : Nat := f.metaStart + 8 + f.lead.length

/-- Where the boxes in `meta` are. -/
def boxes : List RawBox := rawBoxes f.childrenStart f.children

theorem metaAtom_headerSize : f.metaAtom.headerSize = 8 := rfl

theorem metaAtom_size :
    f.metaAtom.size = 8 + f.lead.length + (encodeAll f.children).length := by
  rw [Atom.size, metaAtom_headerSize, Nat.add_assoc]
  exact congrArg (8 + ·) List.length_append

theorem bytes_eq : f.bytes = encodeAll f.before ++ f.metaAtom.header ++ f.lead ++
    encodeAll f.children ++ encodeAll f.after := by
  simp [bytes, top, Atom.encode, metaAtom]

theorem length_before_header : (encodeAll f.before ++ f.metaAtom.header ++ f.lead).length =
    f.childrenStart := by
  simp [childrenStart, metaStart, metaAtom_headerSize]
  omega

theorem metaStop_eq : f.metaStart + f.metaAtom.size =
    f.childrenStart + (encodeAll f.children).length := by
  rw [metaAtom_size, childrenStart]
  omega

theorem drop_childrenStart :
    f.bytes.drop f.childrenStart = encodeAll f.children ++ encodeAll f.after := by
  rw [bytes_eq, List.append_assoc]
  exact List.drop_left' f.length_before_header

theorem slice?_children : slice? f.bytes f.childrenStart (f.metaStart + f.metaAtom.size) =
    some (encodeAll f.children) := by
  have hlen : f.childrenStart + (encodeAll f.children).length ≤ f.bytes.length := by
    have hall := congrArg List.length f.bytes_eq
    rw [List.append_assoc, List.length_append, length_before_header, List.length_append] at hall
    omega
  rw [metaStop_eq, slice?_of_le (Nat.le_add_right _ _) hlen, slice, drop_childrenStart,
    Nat.add_sub_cancel_left, List.take_left]

theorem holds_boxes : List.Forall₂ (Holds f.bytes) f.boxes f.children :=
  holds_rawBoxes f.drop_childrenStart

end MetaFile

/-- The file is read with a layout. -/
structure ReadAs (bytes : List UInt8) (layout : MetaLayout) (f : MetaFile) : Prop where
  bytes_eq : f.bytes = bytes
  alone : ∀ a ∈ f.before ++ f.after, a.kind ≠ ascii "meta"
  meta_eq : layout.meta = f.metaAtom.rawBox f.metaStart
  prefixSize : layout.prefixSize = f.lead.length
  lead : f.lead.length = 0 ∨ f.lead.length = 4
  first : ∃ c rest, f.children = c :: rest ∧ c.kind = ascii "hdlr" ∧
    (f.lead.length = 0 → (c.encode.drop 8).take 4 ≠ ascii "hdlr")
  iinf : f.boxes.filter (fun box => box.kind = ascii "iinf") = [layout.iinf]
  iloc : f.boxes.filter (fun box => box.kind = ascii "iloc") = [layout.iloc]
  iref : f.boxes.filter (fun box => box.kind = ascii "iref") = layout.iref.toList
  pitm : ∃ pitm, f.boxes.filter (fun box => box.kind = ascii "pitm") = [pitm] ∧
    parsePrimaryItemId bytes pitm = .ok layout.primaryItemId
  narrow : layout.iinf.headerSize = 8 ∧ layout.iloc.headerSize = 8
  narrow_iref : ∀ box ∈ layout.iref, box.headerSize = 8

/-! ## from bytes to a file -/

theorem exists_of_filter_rawBoxes {start : Nat} {atoms : List Atom} {kind : List UInt8}
    {box : RawBox} (h : (rawBoxes start atoms).filter (fun b => b.kind = kind) = [box]) :
    ∃ before a after, atoms = before ++ a :: after ∧ a.kind = kind ∧
      box = a.rawBox (start + (encodeAll before).length) ∧
      ∀ x ∈ before ++ after, x.kind ≠ kind := by
  induction atoms generalizing start with
  | nil => cases h
  | cons a atoms ih =>
      rw [rawBoxes, List.filter_cons] at h
      split at h
      · next hkind =>
          rw [List.cons.injEq, List.filter_eq_nil_iff] at h
          obtain ⟨rfl, hnone⟩ := h
          refine ⟨[], a, atoms, rfl, of_decide_eq_true hkind, rfl, fun x hx heq => ?_⟩
          obtain ⟨before, after, rfl⟩ := List.append_of_mem (show x ∈ atoms from hx)
          refine hnone (x.rawBox (start + a.size + (encodeAll before).length)) ?_
            (decide_eq_true heq)
          rw [rawBoxes_append]
          exact List.mem_append_right _ List.mem_cons_self
      · next hkind =>
          obtain ⟨before, a', after, rfl, hkind', rfl, hnone⟩ := ih h
          refine ⟨a :: before, a', after, rfl, hkind', ?_, List.forall_mem_cons.mpr
            ⟨fun heq => hkind (decide_eq_true heq), hnone⟩⟩
          rw [encodeAll_cons, List.length_append, a.length_encode, Nat.add_assoc]

theorem slice?_kind {bytes rest : List UInt8} {start : Nat} {a : Atom}
    (h : bytes.drop start = a.encode ++ rest) :
    slice? bytes (start + 4) (start + 8) = some a.kind := by
  refine @slice?_of_drop _ _ ((if a.wide then toBe 8 a.size else []) ++ (a.body ++ rest)) _ _ ?_
    (by simp [← List.length_eq_zero_iff, a.kind_length]) (by rw [a.kind_length])
  rw [← List.drop_drop, h, Atom.encode, header_eq]
  simp only [List.append_assoc]
  exact List.drop_left' (length_toBe _ _)

theorem slice?_encode {bytes rest : List UInt8} {start from' to' : Nat} {a : Atom}
    (h : bytes.drop start = a.encode ++ rest) (hle : from' ≤ to') (hto : to' ≤ a.size) :
    slice? bytes (start + from') (start + to') =
      some ((a.encode.drop from').take (to' - from')) := by
  have hlen := congrArg List.length h
  rw [List.length_drop, List.length_append, a.length_encode] at hlen
  have hpart : (a.encode.drop from').length = a.size - from' := by
    rw [List.length_drop, a.length_encode]
  rw [slice?_of_le (by omega) (by have := a.eight_le_size; omega), slice, ← List.drop_drop, h,
    Nat.add_sub_add_left, List.drop_append_of_le_length (by rw [a.length_encode]; omega),
    List.take_append_of_le_length (by omega)]

variable {bodyStart prefixSize : Nat}

theorem metaPrefixSize_eq_ok {bytes : List UInt8}
    (h : metaPrefixSize bytes bodyStart = .ok prefixSize) :
    (prefixSize = 4 ∧ slice? bytes (bodyStart + 8) (bodyStart + 12) = some (ascii "hdlr")) ∨
    (prefixSize = 0 ∧ slice? bytes (bodyStart + 4) (bodyStart + 8) = some (ascii "hdlr") ∧
      slice? bytes (bodyStart + 8) (bodyStart + 12) ≠ some (ascii "hdlr")) := by
  unfold metaPrefixSize at h
  split at h
  · next hfour =>
      rw [pure_eq_ok] at h
      exact .inl ⟨h.symm, hfour⟩
  · next hfour =>
      split at h
      · next hzero =>
          rw [pure_eq_ok] at h
          exact .inr ⟨h.symm, hzero, hfour⟩
      · cases h

/-- Behind the prefix comes the handler. -/
theorem first_is_handler {bytes rest : List UInt8} {c : Atom}
    (hdrop : bytes.drop (bodyStart + prefixSize) = c.encode ++ rest)
    (h : metaPrefixSize bytes bodyStart = .ok prefixSize) :
    c.kind = ascii "hdlr" ∧ (prefixSize = 0 → (c.encode.drop 8).take 4 ≠ ascii "hdlr") := by
  have hkind := slice?_kind hdrop
  rcases metaPrefixSize_eq_ok h with ⟨rfl, hfour⟩ | ⟨rfl, hzero, hfour⟩
  · rw [Nat.add_assoc, Nat.add_assoc, hfour, Option.some.injEq] at hkind
    exact ⟨hkind.symm, fun hne => absurd hne (by decide)⟩
  · rw [Nat.add_zero, hzero, Option.some.injEq] at hkind
    refine ⟨hkind.symm, fun _ heq => hfour ?_⟩
    have hsize : 12 ≤ c.size := by
      have hlen := congrArg List.length heq
      rw [List.length_take, List.length_drop, c.length_encode] at hlen
      have hfour : (ascii "hdlr").length = 4 := by decide
      omega
    rw [← heq]
    exact slice?_encode hdrop (by decide) hsize

/-- **A layout that is found is that of a file.** -/
theorem exists_of_findMetaLayout {bytes : List UInt8} {layout : MetaLayout}
    (h : findMetaLayout bytes = .ok layout) :
    layout.meta.size ≤ maxRewriteMetaBytes ∧ ∃ f, ReadAs bytes layout f := by
  simp only [findMetaLayout, bind_eq_ok, ensure_eq_ok, uniqueRequiredBox_eq_ok,
    uniqueOptionalBox_eq_ok, pure_eq_ok] at h
  obtain ⟨top, htop, metaBox, hmeta, -, hsize, -, hheader, prefixSize, hfront, boxes, hboxes, iinf,
    hiinf, iloc, hiloc, iref, hiref, pitm, hpitm, primary, hprimary, -, hnarrow, -, hnarrow',
    rfl⟩ := h
  obtain ⟨atoms, htop', rfl⟩ := exists_atoms_of_scanRawBoxes htop
  obtain ⟨-, -, hall⟩ := slice?_eq_some.mp htop'
  rw [slice_zero_length] at hall
  obtain ⟨before, m, after, rfl, hkind, rfl, halone⟩ := exists_of_filter_rawBoxes hmeta
  rw [Nat.zero_add] at hheader hfront hboxes hsize ⊢
  obtain ⟨children, hchildren, rfl⟩ := exists_atoms_of_scanRawBoxes hboxes
  have hwide : m.wide = false := by
    rw [Atom.rawBox_headerSize, Atom.headerSize] at hheader
    cases hw : m.wide with
    | false => rfl
    | true => simp [hw] at hheader
  let metaStart := (encodeAll before).length
  let lead := slice bytes (metaStart + 8) (metaStart + 8 + prefixSize)
  obtain ⟨hle, hbound, hslice⟩ := slice?_eq_some.mp hchildren
  have hdrop : bytes.drop metaStart = m.encode ++ encodeAll after := by
    rw [hall, encodeAll_append, encodeAll_cons]
    exact List.drop_left
  have hholds : Holds bytes (m.rawBox metaStart) m := by
    refine ⟨rfl, ?_⟩
    show bytes.drop metaStart = m.encode ++ bytes.drop (metaStart + m.size)
    rw [← List.drop_drop, hdrop, List.drop_left' m.length_encode]
  rw [Atom.rawBox_headerSize] at hheader
  rw [Atom.rawBox_bodyStart, hheader] at hle hslice hfront
  rw [Atom.rawBox_stop] at hle hslice hbound
  have hbody : m.body = lead ++ encodeAll children := by
    rw [← hholds.body, bodyOf, Atom.rawBox_bodyStart, hheader, Atom.rawBox_stop, ← hslice]
    exact (slice_append_slice bytes (Nat.le_add_right _ _) hle).symm
  have hlead : lead.length = prefixSize := by
    rw [length_slice (Nat.le_add_right _ _) (Nat.le_trans hle hbound), Nat.add_sub_cancel_left]
  let f : MetaFile := ⟨before, lead, children, after, by
    have hfit := m.fits
    rwa [hwide, if_neg (by decide), hbody, List.length_append] at hfit⟩
  have hm : f.metaAtom = m := Atom.ext hkind.symm hwide.symm hbody.symm
  have hstart : f.childrenStart = metaStart + 8 + prefixSize := by
    rw [← hlead]
    rfl
  have hboxes' : f.boxes = rawBoxes ((m.rawBox metaStart).bodyStart + prefixSize) children := by
    rw [Atom.rawBox_bodyStart, hheader, ← hstart]
    rfl
  have hbytes : f.bytes = bytes := by
    rw [hall, MetaFile.bytes, MetaFile.top, hm]
  refine ⟨hsize, f, hbytes, halone, by rw [hm]; rfl, hlead.symm, ?_, ?_,
    by rw [hboxes']; exact hiinf, by rw [hboxes']; exact hiloc, by rw [hboxes']; exact hiref,
    ⟨pitm, by rw [hboxes']; exact hpitm, hprimary⟩, hnarrow, hnarrow'⟩
  · rw [show f.lead.length = prefixSize from hlead]
    rcases metaPrefixSize_eq_ok hfront with ⟨rfl, -⟩ | ⟨rfl, -⟩
    · exact .inr rfl
    · exact .inl rfl
  · obtain ⟨c, rest, hfirst⟩ : ∃ c rest, children = c :: rest := by
      cases children with
      | nil => cases hiinf
      | cons c rest => exact ⟨c, rest, rfl⟩
    have hfirst' : bytes.drop (metaStart + 8 + prefixSize) =
        c.encode ++ (encodeAll rest ++ encodeAll after) := by
      rw [← hbytes, ← hstart, f.drop_childrenStart, show f.children = c :: rest from hfirst,
        encodeAll_cons, List.append_assoc]
    obtain ⟨hhandler, hnot⟩ := first_is_handler hfirst' hfront
    exact ⟨c, rest, hfirst, hhandler, fun hzero => hnot (hlead.symm.trans hzero)⟩

/-! ## from a file to bytes -/

theorem encode_eq_zero_cons {c : Atom} (h : c.size < 2 ^ 24) : ∃ rest, c.encode = 0 :: rest := by
  have hsmall : (if c.wide then 1 else c.size) < 2 ^ 24 := by
    split <;> omega
  rw [Atom.encode, header_eq]
  generalize (if c.wide then 1 else c.size) = n at hsmall
  have hzero : n / 256 / 256 / 256 = 0 := by omega
  exact ⟨_, by simp only [toBe, hzero, List.nil_append, List.cons_append]; rfl⟩

theorem metaPrefixSize_of_first {bytes rest : List UInt8} {c c' : Atom}
    (hfront : prefixSize = 0 ∨ prefixSize = 4)
    (hdrop : bytes.drop (bodyStart + prefixSize) = c.encode ++ (c'.encode ++ rest))
    (hkind : c.kind = ascii "hdlr")
    (hnot : prefixSize = 0 → (c.encode.drop 8).take 4 ≠ ascii "hdlr") (hsmall : c'.size < 2 ^ 24) :
    metaPrefixSize bytes bodyStart = .ok prefixSize := by
  have hslice := slice?_kind hdrop
  rw [hkind] at hslice
  unfold metaPrefixSize
  rcases hfront with rfl | rfl
  · rw [Nat.add_zero] at hslice hdrop
    have hfour : slice? bytes (bodyStart + 8) (bodyStart + 12) ≠ some (ascii "hdlr") := by
      intro heq
      have hdrop' := drop_of_slice?_eq_some heq
      rw [← List.drop_drop, hdrop] at hdrop'
      by_cases hsize : 12 ≤ c.size
      · refine hnot rfl ?_
        rw [List.drop_append_of_le_length (by rw [c.length_encode]; omega)] at hdrop'
        have htake := congrArg (List.take 4) hdrop'
        rw [List.take_append_of_le_length (by rw [List.length_drop, c.length_encode]; omega),
          List.take_left' (by decide)] at htake
        exact htake
      · obtain ⟨tail, htail⟩ := encode_eq_zero_cons hsmall
        have height := c.eight_le_size
        have hget := congrArg (fun l => l[c.size - 8]?) hdrop'
        simp only [htail] at hget
        have hascii : ascii "hdlr" = [104, 100, 108, 114] := by decide
        rw [List.getElem?_drop, Nat.add_sub_cancel' height,
          List.getElem?_append_right (Nat.le_of_eq c.length_encode), c.length_encode, Nat.sub_self,
          hascii] at hget
        have hcases : c.size - 8 = 0 ∨ c.size - 8 = 1 ∨ c.size - 8 = 2 ∨ c.size - 8 = 3 := by omega
        rcases hcases with hn | hn | hn | hn <;> rw [hn] at hget <;> simp at hget
    rw [if_neg hfour, if_pos hslice]
    rfl
  · rw [Nat.add_assoc, Nat.add_assoc] at hslice
    rw [if_pos hslice]
    rfl

theorem filter_top {f : MetaFile} (h : ∀ a ∈ f.before ++ f.after, a.kind ≠ ascii "meta") :
    (rawBoxes 0 f.top).filter (fun box => box.kind = ascii "meta") =
      [f.metaAtom.rawBox f.metaStart] := by
  rw [List.forall_mem_append] at h
  have hnone (start : Nat) (atoms : List Atom) (hatoms : ∀ a ∈ atoms, a.kind ≠ ascii "meta") :
      (rawBoxes start atoms).filter (fun box => box.kind = ascii "meta") = [] := by
    induction atoms generalizing start with
    | nil => rfl
    | cons a atoms ih =>
        have hne : ¬ decide ((a.rawBox start).kind = ascii "meta") = true := fun heq =>
          hatoms a List.mem_cons_self (of_decide_eq_true heq)
        rw [rawBoxes, List.filter_cons, if_neg hne]
        exact ih _ fun a' ha' => hatoms a' (List.mem_cons_of_mem _ ha')
  rw [MetaFile.top, rawBoxes_append, List.filter_append, hnone _ _ h.1, List.nil_append, rawBoxes,
    List.filter_cons_of_pos (by simp [MetaFile.metaAtom]), hnone _ _ h.2, Nat.zero_add]
  rfl

theorem size_le_length_encodeAll {atoms : List Atom} {a : Atom} (h : a ∈ atoms) :
    a.size ≤ (encodeAll atoms).length := by
  induction atoms with
  | nil => cases h
  | cons b atoms ih =>
      rw [encodeAll_cons, List.length_append, b.length_encode]
      rcases List.mem_cons.mp h with rfl | h
      · exact Nat.le_add_right _ _
      · exact Nat.le_trans (ih h) (Nat.le_add_left _ _)

theorem scan_top {f : MetaFile} (hlen : f.bytes.length < 2 ^ 64) :
    scanRawBoxes f.bytes 0 f.bytes.length = .ok (rawBoxes 0 f.top) :=
  scanRawBoxes_encodeAll (slice?_eq_some.mpr
    ⟨Nat.zero_le _, Nat.le_refl _, slice_zero_length _⟩) hlen

theorem metaStop_le_length (f : MetaFile) : f.metaStart + f.metaAtom.size ≤ f.bytes.length := by
  have hall := congrArg List.length f.bytes_eq
  rw [List.length_append, List.length_append, f.length_before_header] at hall
  rw [f.metaStop_eq]
  omega

theorem scan_children {f : MetaFile} (hlen : f.bytes.length < 2 ^ 64) :
    scanRawBoxes f.bytes f.childrenStart (f.metaStart + f.metaAtom.size) = .ok f.boxes :=
  scanRawBoxes_encodeAll f.slice?_children (Nat.lt_of_le_of_lt (metaStop_le_length f) hlen)

namespace ReadAs

variable {bytes : List UInt8} {layout : MetaLayout} {f : MetaFile} (h : ReadAs bytes layout f)

include h

theorem bodyStart_eq : layout.meta.bodyStart = f.metaStart + 8 := by
  rw [h.meta_eq, Atom.rawBox_bodyStart, f.metaAtom_headerSize]

theorem childrenStart_eq : layout.meta.bodyStart + layout.prefixSize = f.childrenStart := by
  rw [h.bodyStart_eq, h.prefixSize]
  rfl

theorem metaStop_eq : layout.meta.stop = f.metaStart + f.metaAtom.size := by
  rw [h.meta_eq, Atom.rawBox_stop]

theorem metaSize_eq : layout.meta.size = f.metaAtom.size := by
  rw [h.meta_eq, Atom.rawBox_size]

theorem scan_top (hlen : bytes.length < 2 ^ 64) :
    scanRawBoxes bytes 0 bytes.length = .ok (rawBoxes 0 f.top) := by
  obtain rfl := h.bytes_eq
  exact Heif.scan_top hlen

theorem unique_meta :
    uniqueRequiredBox (rawBoxes 0 f.top) (ascii "meta") "HEIC has no top-level meta box"
      "HEIC has multiple top-level meta boxes" = .ok layout.meta := by
  rw [h.meta_eq]
  exact uniqueRequiredBox_eq_ok.mpr (filter_top h.alone)

theorem scan_children (hlen : bytes.length < 2 ^ 64) :
    scanRawBoxes bytes (layout.meta.bodyStart + layout.prefixSize) layout.meta.stop =
      .ok f.boxes := by
  obtain rfl := h.bytes_eq
  rw [h.childrenStart_eq, h.metaStop_eq]
  exact Heif.scan_children hlen

/-- There is a second box in `meta`, so that the first bytes of `meta` tell its prefix. -/
theorem metaPrefixSize_eq (hsize : layout.meta.size < 2 ^ 24) :
    metaPrefixSize bytes layout.meta.bodyStart = .ok layout.prefixSize := by
  obtain ⟨c, rest, hchildren, hkind, hnot⟩ := h.first
  obtain ⟨c', rest', rfl⟩ : ∃ c' rest', rest = c' :: rest' := by
    cases rest with
    | nil =>
        have hiinf := h.iinf
        rw [MetaFile.boxes, hchildren, rawBoxes, List.filter_cons_of_neg (by simp [hkind]; decide)]
          at hiinf
        cases hiinf
    | cons c' rest' => exact ⟨c', rest', rfl⟩
  have hdrop := f.drop_childrenStart
  rw [hchildren, encodeAll_cons, encodeAll_cons, h.bytes_eq, ← h.childrenStart_eq,
    List.append_assoc, List.append_assoc] at hdrop
  have hsmall : c'.size < 2 ^ 24 := by
    have hle := @size_le_length_encodeAll f.children c' (by rw [hchildren]; simp)
    rw [h.metaSize_eq, f.metaAtom_size] at hsize
    omega
  refine metaPrefixSize_of_first ?_ hdrop hkind (fun hzero => hnot ?_) hsmall
  · rw [h.prefixSize]
    exact h.lead
  · rw [← h.prefixSize, hzero]

/-- **The layout of a file is found**, unless `meta` is too large. -/
theorem findMetaLayout_eq (hsize : layout.meta.size ≤ maxRewriteMetaBytes)
    (hlen : bytes.length < 2 ^ 64) : findMetaLayout bytes = .ok layout := by
  have hfront := h.metaPrefixSize_eq (Nat.lt_of_le_of_lt hsize (by decide))
  have hchildren := h.scan_children hlen
  obtain ⟨pitm, hpitm, hprimary⟩ := h.pitm
  have hheader : layout.meta.headerSize = 8 := by rw [h.meta_eq]; rfl
  simp only [findMetaLayout, h.scan_top hlen, h.unique_meta, ok_bind, ensure_of hsize,
    ensure_of hheader, hfront, hchildren, uniqueRequiredBox_eq_ok.mpr h.iinf, uniqueRequiredBox_eq_ok.mpr h.iloc,
    uniqueOptionalBox_eq_ok.mpr h.iref, uniqueRequiredBox_eq_ok.mpr hpitm, hprimary,
    ensure_of h.narrow, ensure_of h.narrow_iref]
  rfl

theorem findMetaLayout_ne (hsize : maxRewriteMetaBytes < layout.meta.size)
    (hlen : bytes.length < 2 ^ 64) (layout' : MetaLayout) : findMetaLayout bytes ≠ .ok layout' := by
  intro hok
  simp only [findMetaLayout, h.scan_top hlen, ok_bind, bind_eq_ok, uniqueRequiredBox_eq_ok,
    ensure_eq_ok] at hok
  obtain ⟨metaBox, hmeta, -, hle, -⟩ := hok
  rw [filter_top h.alone, ← h.meta_eq, List.cons.injEq] at hmeta
  rw [← hmeta.1] at hle
  omega

/-- The only box of a kind holds the only atom of that kind. -/
theorem exists_holds {kind : List UInt8} {box : RawBox}
    (hbox : f.boxes.filter (fun b => b.kind = kind) = [box]) :
    ∃ a, f.children.filter (fun a => a.kind = kind) = [a] ∧ Holds bytes box a := by
  have hholds := filter_holds f.holds_boxes kind
  rw [hbox, h.bytes_eq] at hholds
  obtain ⟨a, as, ha, has, heq⟩ := List.forall₂_cons_left_iff.mp hholds
  rw [List.forall₂_nil_left_iff.mp has] at heq
  exact ⟨a, heq, ha⟩

end ReadAs

end Kei.Heif
