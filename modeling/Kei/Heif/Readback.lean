import Kei.Heif.Inserted

/-!
# Kei.Heif.Readback

Whether what is written can be read, and written again.

Every accepted rewrite makes a settled file.  The layout of that file is found
unless its `meta` box has grown over the limit of the reader, which only an
insertion can do since the writer does not look at the new size.
-/

namespace Kei.Heif

open Bytes Fallible

/-- The size of `meta` after a rewrite, by what the input says. -/
def metaSizeAfter (input : List UInt8) : Except HeifError Nat := do
  let layout ← findMetaLayout input
  let iloc ← parseIloc input layout.iloc
  let located ← locateXmp input layout.iinf layout.iloc layout.iref layout.primaryItemId
  match located.existing with
  | some _ => pure layout.meta.size
  | none => do
      let describedItemIds ← insertionDescribedItemIds input layout.iref layout.primaryItemId
        located.iinf
      pure (layout.meta.size + insertionGrowth input layout iloc.toIlocWidths located.newItemId
        describedItemIds)

variable {input xmp output : List UInt8}

theorem settled_of_replaceXmp {layout : MetaLayout} {located : LocatedXmp} {location : XmpLocation}
    {f : MetaFile} {b : IlocBody} (hread : ReadAs input layout f) (hlen : output.length < 2 ^ 64)
    (heif : isHeifContent input = true) (hsize : layout.meta.size < 2 ^ 24)
    (hl : Located input layout located b.layout) (hbody : bodyOf input layout.iloc = b.encode)
    (hlocated : locateXmp input layout.iinf layout.iloc layout.iref layout.primaryItemId =
      .ok located) (hexisting : located.existing = some location)
    (hreject : rejectMetaOverlappingItems b.layout layout.meta = .ok ())
    (hresolve : ensureExtentsResolve input b.layout = .ok ())
    (h : replaceXmp input xmp layout b.layout location = .ok output) :
    ∃ layout' f' iloc' located' location', ReadAs output layout' f' ∧
      Settled output xmp layout' iloc' located' location' ∧
      layout'.meta.size = layout.meta.size := by
  simp only [replaceXmp, bind_eq_ok, require_eq_ok, ensure_eq_ok, checkedAdd_eq_some] at h
  obtain ⟨item, hitem, -, hsingle, _, ⟨hfits, rfl⟩, -, hbound, inMdat, hmdat, h⟩ := h
  split at h
  · next hplace =>
      obtain ⟨hpacket, hshared, rfl⟩ := hplace
      rw [pure_eq_ok] at h
      subst h
      have hinput : input.length < 2 ^ 64 := by
        rw [length_overwrite] at hlen
        · exact hlen
        · rw [List.length_append, List.length_replicate]
          omega
      obtain ⟨f', hread', hsettled⟩ := settled_of_overwrite hread hinput heif hl.parseIloc_eq
        hlocated hexisting hreject hresolve hitem hsingle hbound hshared hmdat hpacket
      exact ⟨layout, f', b.layout, located, location, hread', hsettled, rfl⟩
  · simp only [bind_eq_ok, require_eq_ok, checkedAdd_eq_some, pure_eq_ok] at h
    obtain ⟨_, ⟨hoffset, rfl⟩, newIloc, hiloc, appended, happended, hout⟩ := h
    exact settled_of_repointed hread hlen hoffset heif hsize hl hbody hexisting
      (clear_iff.mp ⟨hreject, hresolve⟩) hiloc happended hout.symm

theorem exists_settled (h : rewriteXmp input xmp = .ok output) (hlen : output.length < 2 ^ 64) :
    ∃ layout f iloc located location, ReadAs output layout f ∧
      Settled output xmp layout iloc located location ∧
      metaSizeAfter input = .ok layout.meta.size := by
  simp only [rewriteXmp, bind_eq_ok, ensure_eq_ok] at h
  obtain ⟨-, heif, layout, hlayout, iloc, hiloc, located, hlocated, ⟨⟩, hreject, ⟨⟩, hresolve, h⟩ :=
    h
  obtain ⟨hsize, f, hread⟩ := exists_of_findMetaLayout hlayout
  have hsmall : layout.meta.size < 2 ^ 24 := Nat.lt_of_le_of_lt hsize (by decide)
  obtain ⟨b, hbody, rfl⟩ := exists_of_parseIlocBody hiloc
  obtain ⟨iloc', hl⟩ := located_of_locateXmp hlocated
  obtain rfl : iloc' = b.layout := Except.ok.inj (hl.parseIloc_eq.symm.trans hiloc)
  cases hexisting : located.existing with
  | some location =>
      rw [hexisting] at h
      obtain ⟨layout', f', iloc', located', location', hread', hsettled, hsame⟩ :=
        settled_of_replaceXmp hread hlen heif hsmall hl hbody.symm hlocated hexisting hreject
          hresolve h
      refine ⟨layout', f', iloc', located', location', hread', hsettled, ?_⟩
      simp only [metaSizeAfter, hlayout, hiloc, hlocated, hexisting, ok_bind, hsame]
      rfl
  | none =>
      rw [hexisting] at h
      simp only [bind_eq_ok, ensure_eq_ok] at h
      obtain ⟨-, hnone, h⟩ := h
      obtain ⟨parts⟩ := parts_of_insertXmp h
      obtain ⟨layout', f', b', hinserted⟩ := exists_inserted hread hl hbody.symm parts
      obtain ⟨located', location', hsettled⟩ := settled_of_inserted hread hl hinserted hlen heif
        hsmall hnone (mem_of_insertionDescribedItemIds parts.described).1
        (clear_iff.mp ⟨hreject, hresolve⟩)
      refine ⟨layout', f', b'.layout, located', location', hinserted.readAs, hsettled, ?_⟩
      simp only [metaSizeAfter, hlayout, hiloc, hlocated, hexisting, ok_bind, parts.described]
      rw [hinserted.metaSize, hinserted.growth]
      rfl

/-! ## writing again -/

/-- A rewrite replaces the packet where it is. -/
def RewritesInPlace (bytes xmp : List UInt8) : Prop :=
  ∃ layout iloc located location, findMetaLayout bytes = .ok layout ∧
    parseIloc bytes layout.iloc = .ok iloc ∧
    locateXmp bytes layout.iinf layout.iloc layout.iref layout.primaryItemId = .ok located ∧
    located.existing = some location ∧ xmp.length ≤ location.extentLength ∧
    itemExtentIsShared iloc location.itemId location.extentStart location.extentLength = false ∧
    extentIsWithinMdatPayload bytes location.extentStart location.extentLength = .ok true

/-- What has been written and can be read is written again in place, to the same bytes. -/
theorem rewriteXmp_again {input xmp output : List UInt8} {layout : MetaLayout}
    (h : rewriteXmp input xmp = .ok output) (hlen : output.length < 2 ^ 64)
    (hlayout : findMetaLayout output = .ok layout) :
    rewriteXmp output xmp = .ok output ∧ RewritesInPlace output xmp := by
  obtain ⟨layout', f, iloc, located, location, hread, hsettled, -⟩ := exists_settled h hlen
  have hlayout' : findMetaLayout output = .ok layout' := by
    rcases Nat.lt_or_ge maxRewriteMetaBytes layout'.meta.size with hlt | hle
    · exact absurd hlayout (hread.findMetaLayout_ne hlt hlen layout)
    · exact hread.findMetaLayout_eq hle hlen
  exact ⟨hsettled.rewriteXmp_eq hlayout', layout', iloc, located, location, hlayout',
    hsettled.parseIloc_eq, hsettled.locateXmp_eq, hsettled.existing, hsettled.packet_le,
    hsettled.unshared, hsettled.inMdat⟩

/-- A packet that was inserted is rewritten in place. -/
theorem photo_rewritten_again :
    ∃ output, rewriteXmp output (ascii "<x/>") = .ok output ∧
      RewritesInPlace output (ascii "<x/>") := by
  obtain ⟨output, layout, houtput, hlen, hlayout⟩ := photo_rewritten
  exact ⟨output, rewriteXmp_again houtput hlen hlayout⟩

/-! ## reading what has been written -/

/-- The packet that is located is the one written, with blanks behind it. -/
def ReadsBack (bytes xmp : List UInt8) : Prop :=
  ∃ layout located location, findMetaLayout bytes = .ok layout ∧
    locateXmp bytes layout.iinf layout.iloc layout.iref layout.primaryItemId = .ok located ∧
    located.existing = some location ∧ Padded bytes xmp location

theorem size_le_of_readsBack {size : Nat} (h : rewriteXmp input xmp = .ok output)
    (hlen : output.length < 2 ^ 64) (hafter : metaSizeAfter input = .ok size)
    (hback : ReadsBack output xmp) : size ≤ maxRewriteMetaBytes := by
  obtain ⟨layout, f, -, -, -, hread, -, hafter'⟩ := exists_settled h hlen
  obtain rfl : layout.meta.size = size := Except.ok.inj (hafter'.symm.trans hafter)
  obtain ⟨layout', -, -, hlayout, -⟩ := hback
  exact Nat.le_of_not_lt fun hlt => hread.findMetaLayout_ne hlt hlen layout' hlayout

/-- A packet is read back just when the `meta` box that is written is not too large to be read. -/
theorem readsBack_iff {input xmp output : List UInt8} (h : rewriteXmp input xmp = .ok output)
    (hlen : output.length < 2 ^ 64) :
    ReadsBack output xmp ↔ ∃ size, metaSizeAfter input = .ok size ∧ size ≤ maxRewriteMetaBytes := by
  obtain ⟨layout, f, iloc, located, location, hread, hsettled, hafter⟩ := exists_settled h hlen
  constructor
  · intro hback
    exact ⟨_, hafter, size_le_of_readsBack h hlen hafter hback⟩
  · rintro ⟨size, hsize, hle⟩
    obtain rfl : layout.meta.size = size := Except.ok.inj (hafter.symm.trans hsize)
    exact ⟨layout, located, location, hread.findMetaLayout_eq hle hlen, hsettled.locateXmp_eq,
      hsettled.existing, hsettled.padded⟩

/-- The packet is found again. -/
theorem photo_readsBack_iff :
    ∃ output, rewriteXmp (onePhoto 1) (ascii "<x/>") = .ok output ∧
      (ReadsBack output (ascii "<x/>") ↔
        ∃ size, metaSizeAfter (onePhoto 1) = .ok size ∧ size ≤ maxRewriteMetaBytes) := by
  obtain ⟨output, _, houtput, hlen, -⟩ := photo_rewritten
  exact ⟨output, houtput, readsBack_iff houtput hlen⟩

/-! ## a `meta` box of the largest size -/

theorem padding_fits {pad : List UInt8} (h : pad.length < 2 ^ 24) :
    if false = true then pad.length + 16 < 2 ^ 64 else pad.length + 8 < 2 ^ 32 := by
  rw [if_neg (by decide)]
  omega

theorem padding_total_fits {pad : List UInt8} (h : pad.length < 2 ^ 24) :
    4 + (8 + (14 + (35 + (30 + (8 + pad.length))))) + 8 < 4294967296 := by omega

/-- A photo whose `meta` box ends with a `free` box. -/
def paddedPhoto (pad : List UInt8) (h : pad.length < 2 ^ 24) : MetaFile where
  before := [⟨ascii "ftyp", false, ascii "heic", by decide, by decide⟩,
    ⟨ascii "mdat", false, [7, 8, 9], by decide, by decide⟩]
  lead := [0, 0, 0, 0]
  children := [⟨ascii "hdlr", false, [], by decide, by decide⟩,
    ⟨ascii "pitm", false, [0, 0, 0, 0, 0, 1], by decide, by decide⟩,
    ⟨ascii "iinf", false, [0, 0, 0, 0] ++ toBe 2 1 ++
      shortBox "infe" ([2, 0, 0, 0] ++ toBe 2 1 ++ toBe 2 0 ++ ascii "hvc1" ++ [0]), by decide,
      by decide⟩,
    ⟨ascii "iloc", false, [0, 0, 0, 0, 0x44, 0] ++ toBe 2 1 ++
      (toBe 2 1 ++ toBe 2 0 ++ toBe 2 1 ++ toBe 4 20 ++ toBe 4 3), by decide, by decide⟩,
    ⟨ascii "free", false, pad, by decide, padding_fits h⟩]
  after := []
  fits := by
    simp [Atom.size, Atom.headerSize, shortBox, ascii]
    exact padding_total_fits h

def paddedLayout (pad : Nat) : MetaLayout where
  «meta» := ⟨23, 107 + pad, 8, ascii "meta"⟩
  iinf := ⟨57, 35, 8, ascii "iinf"⟩
  iloc := ⟨92, 30, 8, ascii "iloc"⟩
  iref := none
  primaryItemId := 1
  prefixSize := 4

theorem paddedPhoto_boxes (pad : List UInt8) (h : pad.length < 2 ^ 24) :
    (paddedPhoto pad h).boxes = [⟨35, 8, 8, ascii "hdlr"⟩, ⟨43, 14, 8, ascii "pitm"⟩,
      ⟨57, 35, 8, ascii "iinf"⟩, ⟨92, 30, 8, ascii "iloc"⟩,
      ⟨122, 8 + pad.length, 8, ascii "free"⟩] := by
  simp [MetaFile.boxes, MetaFile.childrenStart, MetaFile.metaStart, paddedPhoto, rawBoxes,
    Atom.rawBox, Atom.size, Atom.headerSize, shortBox, ascii]

theorem paddedPhoto_size (pad : List UInt8) (h : pad.length < 2 ^ 24) :
    (paddedPhoto pad h).metaStart = 23 ∧ (paddedPhoto pad h).metaAtom.size = 107 + pad.length ∧
      (paddedPhoto pad h).bytes.length = 130 + pad.length := by
  have hstart : (paddedPhoto pad h).metaStart = 23 := by
    simp [MetaFile.metaStart, paddedPhoto, Atom.size, Atom.headerSize, ascii]
  have hsize : (paddedPhoto pad h).metaAtom.size = 107 + pad.length := by
    rw [MetaFile.metaAtom_size]
    simp [paddedPhoto, Atom.size, Atom.headerSize, shortBox, ascii]
    omega
  refine ⟨hstart, hsize, ?_⟩
  have hlen := (paddedPhoto pad h).metaAtom.length_encode
  rw [hsize] at hlen
  unfold MetaFile.metaStart at hstart
  rw [MetaFile.bytes, MetaFile.top, encodeAll_append, encodeAll_cons, List.length_append,
    List.length_append, hlen, hstart]
  simp [paddedPhoto]
  omega

theorem paddedPhoto_bodies (pad : List UInt8) (h : pad.length < 2 ^ 24) :
    bodyOf (paddedPhoto pad h).bytes ⟨43, 14, 8, ascii "pitm"⟩ = [0, 0, 0, 0, 0, 1] ∧
      bodyOf (paddedPhoto pad h).bytes (paddedLayout pad.length).iinf = [0, 0, 0, 0] ++ toBe 2 1 ++
        shortBox "infe" ([2, 0, 0, 0] ++ toBe 2 1 ++ toBe 2 0 ++ ascii "hvc1" ++ [0]) ∧
      bodyOf (paddedPhoto pad h).bytes (paddedLayout pad.length).iloc =
        [0, 0, 0, 0, 0x44, 0] ++ toBe 2 1 ++
          (toBe 2 1 ++ toBe 2 0 ++ toBe 2 1 ++ toBe 4 20 ++ toBe 4 3) := by
  have hholds := (paddedPhoto pad h).holds_boxes
  rw [paddedPhoto_boxes] at hholds
  obtain ⟨hpitm, hrest⟩ := List.forall₂_cons.mp (List.forall₂_cons.mp hholds).2
  obtain ⟨hiinf, hrest⟩ := List.forall₂_cons.mp hrest
  exact ⟨hpitm.body, hiinf.body, (List.forall₂_cons.mp hrest).1.body⟩

theorem paddedPhoto_readAs (pad : List UInt8) (h : pad.length < 2 ^ 24) :
    ReadAs (paddedPhoto pad h).bytes (paddedLayout pad.length) (paddedPhoto pad h) := by
  have hboxes := paddedPhoto_boxes pad h
  obtain ⟨hstart, hsize, -⟩ := paddedPhoto_size pad h
  refine ⟨rfl, ?_, ?_, rfl, .inr rfl, ⟨_, _, rfl, rfl, nofun⟩, by rw [hboxes]; rfl,
    by rw [hboxes]; rfl, by rw [hboxes]; rfl, ⟨⟨43, 14, 8, ascii "pitm"⟩, by rw [hboxes]; rfl, ?_⟩,
    ⟨rfl, rfl⟩, nofun⟩
  · simp [paddedPhoto]
    decide
  · rw [Atom.rawBox, hstart, hsize]
    rfl
  · unfold parsePrimaryItemId
    rw [(paddedPhoto_bodies pad h).1]
    rfl

theorem paddedPhoto_iinf (pad : List UInt8) (h : pad.length < 2 ^ 24) :
    parseIinf (paddedPhoto pad h).bytes (paddedLayout pad.length).iinf =
      .ok ⟨0, 4, 2, 1, [], [], [], [1]⟩ := by
  rw [parseIinf, (paddedPhoto_bodies pad h).2.1]
  decide +kernel

theorem paddedPhoto_iloc (pad : List UInt8) (h : pad.length < 2 ^ 24) :
    parseIloc (paddedPhoto pad h).bytes (paddedLayout pad.length).iloc =
      .ok ⟨⟨0, 4, 4, 0, 0⟩, 6, 2, [⟨1, 0, 0, none, 0, [⟨some 14, some 18, 20, 3⟩]⟩]⟩ := by
  rw [parseIloc, (paddedPhoto_bodies pad h).2.2]
  decide +kernel

theorem paddedPhoto_located (pad : List UInt8) (h : pad.length < 2 ^ 24) :
    locateXmp (paddedPhoto pad h).bytes (paddedLayout pad.length).iinf
      (paddedLayout pad.length).iloc (paddedLayout pad.length).iref
      (paddedLayout pad.length).primaryItemId = .ok photoLocated := by
  simp only [locateXmp, paddedPhoto_iinf, paddedPhoto_iloc, ok_bind]
  rfl

/-- The boxes that the photo gets with a packet of four bytes. -/
def grownIinf : Atom where
  kind := ascii "iinf"
  wide := false
  body := [0, 0, 0, 0] ++ toBe 2 2 ++
    shortBox "infe" ([2, 0, 0, 0] ++ toBe 2 1 ++ toBe 2 0 ++ ascii "hvc1" ++ [0]) ++
    shortBox "infe" ([2, 0, 0, 0] ++ toBe 2 2 ++ toBe 2 0 ++ ascii "mime" ++ ascii "XMP" ++ [0] ++
      ascii "application/rdf+xml" ++ [0, 0])
  kind_length := by decide
  fits := by decide

def grownIref : Atom where
  kind := ascii "iref"
  wide := false
  body := [0, 0, 0, 0] ++ shortBox "cdsc" (toBe 2 2 ++ toBe 2 1 ++ toBe 2 1)
  kind_length := by decide
  fits := by decide

def grownIloc (dataOffset : Nat) : Atom where
  kind := ascii "iloc"
  wide := false
  body := [0, 0, 0, 0, 0x44, 0] ++ toBe 2 2 ++
    (toBe 2 1 ++ toBe 2 0 ++ toBe 2 1 ++ toBe 4 20 ++ toBe 4 3) ++
    (toBe 2 2 ++ toBe 2 0 ++ toBe 2 1 ++ toBe 4 dataOffset ++ toBe 4 4)
  kind_length := by decide
  fits := by simp

theorem paddedPhoto_rewritten (pad : List UInt8) (hpad : pad.length = 8388501)
    (h : pad.length < 2 ^ 24) :
    (∃ output, rewriteXmp (paddedPhoto pad h).bytes (ascii "<x/>") = .ok output ∧
      output.length < 2 ^ 64) ∧
    metaSizeAfter (paddedPhoto pad h).bytes = .ok 8388693 := by
  have hread := paddedPhoto_readAs pad h
  have hiloc := paddedPhoto_iloc pad h
  have hlocated := paddedPhoto_located pad h
  obtain ⟨-, hbodyIinf, hbodyIloc⟩ := paddedPhoto_bodies pad h
  obtain ⟨-, -, hlen⟩ := paddedPhoto_size pad h
  rw [hpad] at hlen
  have hshort : (paddedPhoto pad h).bytes.length < 2 ^ 64 := by rw [hlen]; decide
  have hscan := hread.scan_children hshort
  have hlayout := hread.findMetaLayout_eq (by show 107 + pad.length ≤ _; rw [hpad]; decide) hshort
  have hlead := hread.slice_lead
  have hflat := fun iinf iref iloc =>
    @flatMap_newMetaChild _ _ _ iinf iref iloc hread
  have htop := scan_top hshort
  have heif : isHeifContent (paddedPhoto pad h).bytes = true := by
    have hfirst : (paddedPhoto pad h).bytes.take 12 = shortBox "ftyp" (ascii "heic") := by
      rw [MetaFile.bytes_eq]
      rfl
    exact (@isHeifContent_congr (shortBox "ftyp" (ascii "heic")) _
      (by rw [hfirst]; decide)).trans (by decide)
  have hfree : (paddedPhoto pad h).children.flatMap
      (substitute (grownIinf :: [grownIref]) [grownIref] [grownIloc 8388724]) =
      (paddedPhoto pad h).children.take 2 ++ [grownIinf, grownIref, grownIloc 8388724] ++
        (paddedPhoto pad h).children.drop 4 := rfl
  have hgrown : (encodeAll ((paddedPhoto pad h).children.take 2 ++
      [grownIinf, grownIref, grownIloc 8388724] ++ (paddedPhoto pad h).children.drop 4)).length =
      8388681 := by
    simp [paddedPhoto, grownIinf, grownIref, grownIloc, Atom.size, Atom.headerSize, shortBox, ascii,
      hpad]
  rw [hpad] at hlayout hiloc hlocated hbodyIinf hbodyIloc hscan hlead hflat
  generalize (paddedPhoto pad h).bytes = input at *
  have hreject : rejectMetaOverlappingItems
      ⟨⟨0, 4, 4, 0, 0⟩, 6, 2, [⟨1, 0, 0, none, 0, [⟨some 14, some 18, 20, 3⟩]⟩]⟩
      (paddedLayout 8388501).meta = .ok () := by decide +kernel
  have hresolve : ensureExtentsResolve input
      ⟨⟨0, 4, 4, 0, 0⟩, 6, 2, [⟨1, 0, 0, none, 0, [⟨some 14, some 18, 20, 3⟩]⟩]⟩ = .ok () := by
    rw [ensureExtentsResolve_eq_ok, hlen]
    decide
  have hdescribed : insertionDescribedItemIds input (paddedLayout 8388501).iref
      (paddedLayout 8388501).primaryItemId photoLocated.iinf = .ok [1] := rfl
  have htopLevel : ensureInsertionLayout input = .ok () := by
    have hkinds : ∀ atom ∈ rawBoxes 0 (paddedPhoto pad h).top, atom.kind = ascii "ftyp" ∨
        atom.kind = ascii "meta" ∨ atom.kind = ascii "mdat" ∨ atom.kind = ascii "free" ∨
        atom.kind = ascii "wide" := by
      simp [MetaFile.top, MetaFile.metaAtom, paddedPhoto, rawBoxes]
    simp only [ensureInsertionLayout, htop, ok_bind, ensure_of hkinds]
  have hnewIinf : appendIinfEntry input (paddedLayout 8388501).iinf 4 2 2 =
      .ok grownIinf.encode := by
    unfold appendIinfEntry
    rw [hbodyIinf]
    decide +kernel
  have hnewIref : describeInIref input none 2 [1] [1] = .ok grownIref.encode := by
    show synthesiseCdscIref 2 [1] = _
    decide +kernel
  have hplaceholder : appendIlocEntry input (paddedLayout 8388501).iloc
      ⟨⟨0, 4, 4, 0, 0⟩, 6, 2, [⟨1, 0, 0, none, 0, [⟨some 14, some 18, 20, 3⟩]⟩]⟩ 2 8388639 4 0
      (paddedLayout 8388501).meta.stop = .ok (grownIloc 8388639).encode := by
    unfold appendIlocEntry
    rw [hbodyIloc]
    decide +kernel
  have hnewIloc : appendIlocEntry input (paddedLayout 8388501).iloc
      ⟨⟨0, 4, 4, 0, 0⟩, 6, 2, [⟨1, 0, 0, none, 0, [⟨some 14, some 18, 20, 3⟩]⟩]⟩ 2 8388724 4 85
      (paddedLayout 8388501).meta.stop = .ok (grownIloc 8388724).encode := by
    unfold appendIlocEntry
    rw [hbodyIloc]
    decide +kernel
  have hnewLen (dataOffset : Nat) : newMetaLen (paddedLayout 8388501) grownIinf.encode
      grownIref.encode (grownIloc dataOffset).encode = some 8388693 := by
    have hsame : (grownIloc dataOffset).encode.length = (grownIloc 0).encode.length := by
      simp [grownIloc, Atom.size, Atom.headerSize]
    rw [newMetaLen_congr hsame]
    decide +kernel
  have hmetaLen : ((paddedPhoto pad h).metaAtom.header ++ (paddedPhoto pad h).lead ++ encodeAll
      ((paddedPhoto pad h).children.take 2 ++ [grownIinf, grownIref, grownIloc 8388724] ++
        (paddedPhoto pad h).children.drop 4)).length = 8388693 := by
    have hfront : ((paddedPhoto pad h).metaAtom.header ++ (paddedPhoto pad h).lead).length = 12 :=
      rfl
    rw [List.length_append, hgrown, hfront]
  generalize hmeta : (paddedPhoto pad h).metaAtom.header ++ (paddedPhoto pad h).lead ++ encodeAll
    ((paddedPhoto pad h).children.take 2 ++ [grownIinf, grownIref, grownIloc 8388724] ++
      (paddedPhoto pad h).children.drop 4) = metaBytes at hmetaLen
  have hpatch : patchBoxSize metaBytes = .ok (overwrite metaBytes 0 (toBe 4 8388693)) := by
    unfold patchBoxSize
    rw [hmetaLen]
    rfl
  have hpatchLen : (overwrite metaBytes 0 (toBe 4 8388693)).length = 8388693 := by
    rw [length_overwrite, hmetaLen]
    rw [hmetaLen, length_toBe]
    decide
  have hchildren := hflat grownIinf grownIref (grownIloc 8388724)
  rw [show (if (paddedLayout 8388501).iref.isNone then [grownIref] else []) = [grownIref] from rfl,
    hfree] at hchildren
  have happended : boxWithBody (ascii "mdat") (ascii "<x/>") =
      .ok (shortBox "mdat" (ascii "<x/>")) := by decide +kernel
  let parts : InsertionParts input (ascii "<x/>") (paddedLayout 8388501)
      ⟨⟨0, 4, 4, 0, 0⟩, 6, 2, [⟨1, 0, 0, none, 0, [⟨some 14, some 18, 20, 3⟩]⟩]⟩ photoLocated
      (input.take 23 ++ overwrite metaBytes 0 (toBe 4 8388693) ++ input.drop 8388631 ++
        shortBox "mdat" (ascii "<x/>")) := {
    describedItemIds := [1]
    newIinf := grownIinf.encode
    newIref := grownIref.encode
    placeholderIloc := (grownIloc 8388639).encode
    newIloc := (grownIloc 8388724).encode
    delta := 85
    newLen := 8388693
    children := (paddedPhoto pad h).boxes
    metaBytes := overwrite metaBytes 0 (toBe 4 8388693)
    appended := shortBox "mdat" (ascii "<x/>")
    topLevel := htopLevel
    described := hdescribed
    itemId_lt := by decide
    iinf_eq := hnewIinf
    iref_eq := hnewIref
    placeholder_eq := by rw [hlen]; exact hplaceholder
    delta_eq := hnewLen 8388639
    offset_lt := by rw [hlen]; decide
    iloc_eq := by rw [hlen]; exact hnewIloc
    newLen_eq := hnewLen 8388724
    children_eq := hscan
    meta_eq := by rw [hchildren, hlead, hmeta, hpatch]
    length_meta := hpatchLen
    appended_eq := happended
    output_eq := rfl }
  have hinsert := insertXmp_of_parts parts (by decide)
  have hexisting : photoLocated.existing = none := rfl
  have habsent : photoLocated.xmpItemId = none := rfl
  refine ⟨⟨input.take 23 ++ overwrite metaBytes 0 (toBe 4 8388693) ++ input.drop 8388631 ++
    shortBox "mdat" (ascii "<x/>"), ?_, ?_⟩, ?_⟩
  case refine_1 =>
    simp only [rewriteXmp, ensure_of heif, hlayout, hiloc, hlocated, hreject, hresolve, hexisting,
      ensure_of habsent, ok_bind]
    exact hinsert
  case refine_2 =>
    have htail : (shortBox "mdat" (ascii "<x/>")).length = 12 := by decide
    have htake : (input.take 23).length ≤ 23 := List.length_take_le _ _
    have hdrop : (input.drop 8388631).length = 0 := by rw [List.length_drop, hlen]
    rw [List.length_append, List.length_append, List.length_append, hpatchLen, htail, hdrop]
    generalize (input.take 23).length = front at htake
    clear * - htake
    omega
  case refine_3 =>
    have hgrowth : insertionGrowth input (paddedLayout 8388501) ⟨0, 4, 4, 0, 0⟩
        photoLocated.newItemId [1] = 85 := rfl
    simp only [metaSizeAfter, hlayout, hiloc, hlocated, hexisting, hdescribed, hgrowth, ok_bind]
    rfl

/-- The photo whose `meta` box is as large as is read. -/
def fullPhoto : List UInt8 :=
  (paddedPhoto (List.replicate 8388501 0) (by rw [List.length_replicate]; decide)).bytes

/-- The packet is written to the photo, and the reader refuses what has been written. -/
theorem packet_not_read_back : ∃ output,
    rewriteXmp fullPhoto (ascii "<x/>") = .ok output ∧ output.length < 2 ^ 64 ∧
      ¬ ReadsBack output (ascii "<x/>") := by
  obtain ⟨⟨output, houtput, hlen⟩, hafter⟩ :=
    paddedPhoto_rewritten (List.replicate 8388501 0) List.length_replicate
      (by rw [List.length_replicate]; decide)
  refine ⟨output, houtput, hlen, fun hback => ?_⟩
  have hle := size_le_of_readsBack houtput hlen hafter hback
  exact absurd hle (by decide)

end Kei.Heif
