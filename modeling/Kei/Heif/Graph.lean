import Kei.Heif.Inserted

/-!
# Kei.Heif.Graph

The items of a file and their references after an insertion.

The entries of the input are there in their order with the packet behind them,
and the references of every type are those of the input, but for the one that
says what the packet describes.
-/

namespace Kei.Heif

open Bytes Fallible

/-- The boxes in `meta`, whatever its size. -/
def metaChildren (bytes : List UInt8) : Except HeifError (List RawBox) := do
  let top ← scanRawBoxes bytes 0 bytes.length
  let metaBox ← uniqueRequiredBox top (ascii "meta") "HEIC has no top-level meta box"
    "HEIC has multiple top-level meta boxes"
  let prefixSize ← metaPrefixSize bytes metaBox.bodyStart
  scanRawBoxes bytes (metaBox.bodyStart + prefixSize) metaBox.stop

variable {bytes : List UInt8}

theorem metaChildren_of_findMetaLayout {layout : MetaLayout}
    (h : findMetaLayout bytes = .ok layout) :
    ∃ children, metaChildren bytes = .ok children ∧
      children.filter (fun box => box.kind = ascii "iinf") = [layout.iinf] ∧
      children.filter (fun box => box.kind = ascii "iref") = layout.iref.toList := by
  simp only [findMetaLayout, bind_eq_ok, pure_eq_ok] at h
  obtain ⟨top, htop, metaBox, hmeta, -, -, -, -, prefixSize, hprefix, boxes, hboxes, iinf, hiinf,
    iloc, -, iref, hiref, -, -, -, -, -, -, -, -, rfl⟩ := h
  refine ⟨boxes, ?_, uniqueRequiredBox_eq_ok.mp hiinf, uniqueOptionalBox_eq_ok.mp hiref⟩
  simp only [metaChildren, htop, hmeta, hprefix, ok_bind]
  exact hboxes

theorem ReadAs.metaChildren_eq {layout : MetaLayout} {f : MetaFile} (h : ReadAs bytes layout f)
    (hsize : layout.meta.size < 2 ^ 24) (hlen : bytes.length < 2 ^ 64) :
    metaChildren bytes = .ok f.boxes := by
  simp only [metaChildren, h.scan_top hlen, h.unique_meta, ok_bind, h.metaPrefixSize_eq hsize,
    h.scan_children hlen]

theorem length_describedItemIds_le {iref : Option RawBox} {primaryItemId : Nat} {iinf : IinfLayout}
    {itemIds : List Nat}
    (h : insertionDescribedItemIds bytes iref primaryItemId iinf = .ok itemIds) :
    itemIds.length ≤ 2 := by
  unfold insertionDescribedItemIds at h
  split at h
  · rw [pure_eq_ok] at h
    rw [← h]
    exact Nat.le_succ 1
  · simp only [bind_eq_ok, pure_eq_ok] at h
    obtain ⟨-, -, -, -, -, -, -, -, -, -, rfl⟩ := h
    exact Nat.le_refl 2
  · cases h

theorem insertionGrowth_le {bytes : List UInt8} {layout : MetaLayout} {w : IlocWidths}
    {newItemId : Nat} {describedItemIds : List Nat} (hw : w.Valid)
    (h : describedItemIds.length ≤ 2) :
    insertionGrowth bytes layout w newItemId describedItemIds ≤ 200 := by
  have hwidth : newReferenceWidth bytes layout.iref newItemId describedItemIds ≤ 4 := by
    unfold newReferenceWidth
    split <;> split <;> decide
  have hinfe : infeSize newItemId ≤ 47 := by
    unfold infeSize
    split <;> decide
  have hsize (size : Nat) (hmem : size ∈ [w.offsetSize, w.lengthSize, w.baseOffsetSize,
      w.indexSize]) : size ≤ 8 := by
    rcases hw.sizes size hmem with h | h | h <;> omega
  have hitem : w.itemIdSize ≤ 4 := by
    unfold IlocWidths.itemIdSize
    split <;> decide
  have hmul : describedItemIds.length *
      newReferenceWidth bytes layout.iref newItemId describedItemIds ≤ 2 * 4 :=
    Nat.mul_le_mul h hwidth
  have h1 := hsize w.offsetSize (by simp)
  have h2 := hsize w.lengthSize (by simp)
  have h3 := hsize w.baseOffsetSize (by simp)
  have h4 := hsize w.indexSize (by simp)
  have hnone : (if layout.iref.isNone = true then 12 else 0) ≤ 12 := by split <;> decide
  have hmethod : (if w.version = 0 then 0 else 2) ≤ 2 := by split <;> decide
  unfold insertionGrowth referenceSize IlocWidths.minItemBytes IlocWidths.minExtentBytes
  omega

/-- The tables of the output have those of the input and the new item. -/
structure GraphExtended (input output : List UInt8) (layout : MetaLayout) (located : LocatedXmp)
    (describedItemIds : List Nat) (iinf iref : RawBox) : Prop where
  entries : ∃ bodies entry, infeBodies (bodyOf input layout.iinf) = .ok bodies ∧
    infeBodies (bodyOf output iinf) = .ok (bodies ++ [entry]) ∧
    parseInfe entry =
      .ok ⟨located.newItemId, some (ascii "mime"), some (ascii "application/rdf+xml")⟩
  ids : parseIinf output iinf = .ok (located.iinf.withXmp located.newItemId)
  references : ∀ referenceType, ∃ pairs,
    referencePairs input layout.iref referenceType = .ok pairs ∧
    itemReferencePairs output iref referenceType =
      .ok (pairs ++ addedPairs located.newItemId describedItemIds referenceType)

/-- An insertion adds one entry and what it describes, and leaves the other items and
references as they were. -/
theorem insertion_graph {input xmp output : List UInt8} {layout : MetaLayout}
    {located : LocatedXmp} (hrewrite : rewriteXmp input xmp = .ok output)
    (hlen : output.length < 2 ^ 64) (hlayout : findMetaLayout input = .ok layout)
    (hlocated : locateXmp input layout.iinf layout.iloc layout.iref layout.primaryItemId =
      .ok located) (habsent : located.existing = none) :
    ∃ describedItemIds children iinf iref,
      insertionDescribedItemIds input layout.iref layout.primaryItemId located.iinf =
        .ok describedItemIds ∧
      metaChildren output = .ok children ∧
      children.filter (fun box => box.kind = ascii "iinf") = [iinf] ∧
      children.filter (fun box => box.kind = ascii "iref") = [iref] ∧
      GraphExtended input output layout located describedItemIds iinf iref ∧
      ∀ layout', findMetaLayout output = .ok layout' →
        layout'.iinf = iinf ∧ layout'.iref = some iref := by
  obtain ⟨iloc, hl, ⟨parts⟩⟩ := parts_of_rewriteXmp hrewrite hlayout hlocated habsent
  obtain ⟨hsize, f, hread⟩ := exists_of_findMetaLayout hlayout
  obtain ⟨b, hbody, rfl⟩ := exists_of_parseIlocBody hl.parseIloc_eq
  obtain ⟨layout', f', b', hi⟩ := exists_inserted hread hl hbody.symm parts
  obtain ⟨iref, hiref, hreferences⟩ := hi.references
  have hgrowth := @insertionGrowth_le input layout _
    located.newItemId _ b.valid (length_describedItemIds_le parts.described)
  rw [← hi.growth] at hgrowth
  have hchildren := hi.readAs.metaChildren_eq (by
    rw [hi.metaSize]
    have hmax : maxRewriteMetaBytes = 8388608 := rfl
    omega) hlen
  have hfound := hi.readAs.iref
  rw [hiref, Option.toList_some] at hfound
  refine ⟨parts.describedItemIds, f'.boxes, layout'.iinf, iref, parts.described, hchildren,
    hi.readAs.iinf, hfound, ⟨hi.entries, hi.parseIinf_eq, hreferences⟩, fun layout'' h => ?_⟩
  obtain ⟨children, hchildren', hiinf', hiref'⟩ := metaChildren_of_findMetaLayout h
  obtain rfl : f'.boxes = children := Except.ok.inj (hchildren.symm.trans hchildren')
  rw [hi.readAs.iinf, List.cons.injEq] at hiinf'
  rw [hfound] at hiref'
  refine ⟨hiinf'.1.symm, ?_⟩
  cases hopt : layout''.iref with
  | none =>
      rw [hopt] at hiref'
      cases hiref'
  | some iref' =>
      rw [hopt, Option.toList_some, List.cons.injEq] at hiref'
      rw [hiref'.1]

/-- The packet of a photo without one. -/
theorem photo_graph :
    ∃ output describedItemIds children iinf iref,
      insertionDescribedItemIds (onePhoto 1) (photoLayout 1).iref (photoLayout 1).primaryItemId
        photoLocated.iinf = .ok describedItemIds ∧
      metaChildren output = .ok children ∧
      children.filter (fun box => box.kind = ascii "iinf") = [iinf] ∧
      children.filter (fun box => box.kind = ascii "iref") = [iref] ∧
      GraphExtended (onePhoto 1) output (photoLayout 1) photoLocated describedItemIds iinf iref ∧
      ∀ layout', findMetaLayout output = .ok layout' →
        layout'.iinf = iinf ∧ layout'.iref = some iref := by
  obtain ⟨output, _, houtput, hlen, -⟩ := photo_rewritten
  exact ⟨output, insertion_graph houtput hlen (by decide +kernel) (by decide +kernel) rfl⟩

end Kei.Heif
