import Kei.Heif.Appended

/-!
# Kei.Heif.Inserted

What is read of a file that has got a new item.

The tables of the input are read again with one entry, one reference and one
location more, in a `meta` box that has grown by their sizes.
-/

namespace Kei.Heif

open Bytes Fallible

/-- By how much `meta` grows when a packet is inserted. -/
def insertionGrowth (bytes : List UInt8) (layout : MetaLayout) (w : IlocWidths) (newItemId : Nat)
    (describedItemIds : List Nat) : Nat :=
  infeSize newItemId +
    ((if layout.iref.isNone then 12 else 0) +
      referenceSize (newReferenceWidth bytes layout.iref newItemId describedItemIds)
        describedItemIds.length) +
    (w.minItemBytes + w.minExtentBytes)

/-- What is read of the output of an insertion. -/
structure Inserted (input xmp output : List UInt8) (layout : MetaLayout) (located : LocatedXmp)
    (describedItemIds : List Nat) (delta : Nat) (f : MetaFile) (b : IlocBody)
    (layout' : MetaLayout) (f' : MetaFile) (b' : IlocBody) : Prop where
  readAs : ReadAs output layout' f'
  metaStart : layout'.meta.start = layout.meta.start
  metaSize : layout'.meta.size = layout.meta.size + delta
  primaryItemId : layout'.primaryItemId = layout.primaryItemId
  prefixSize : layout'.prefixSize = layout.prefixSize
  before : f'.before = f.before
  after : ∃ mdat : Atom, f'.after = f.after ++ [mdat] ∧ mdat.kind = ascii "mdat" ∧
    mdat.wide = false ∧ mdat.body = xmp
  parseIinf_eq : parseIinf output layout'.iinf = .ok (located.iinf.withXmp located.newItemId)
  entries : ∃ bodies entry, infeBodies (bodyOf input layout.iinf) = .ok bodies ∧
    infeBodies (bodyOf output layout'.iinf) = .ok (bodies ++ [entry]) ∧
    parseInfe entry =
      .ok ⟨located.newItemId, some (ascii "mime"), some (ascii "application/rdf+xml")⟩
  references : ∃ iref, layout'.iref = some iref ∧ ∀ referenceType, ∃ pairs,
    referencePairs input layout.iref referenceType = .ok pairs ∧
    itemReferencePairs output iref referenceType =
      .ok (pairs ++ addedPairs located.newItemId describedItemIds referenceType)
  iloc : bodyOf output layout'.iloc = b'.encode
  items : b'.items = b.items.map (ItemEntry.shift b.w delta layout.meta.stop) ++
    [newItem b.w located.newItemId (input.length + delta + 8) xmp.length]
  length : output.length = input.length + delta + 8 + xmp.length
  growth : delta = insertionGrowth input layout b.w located.newItemId describedItemIds

theorem size_of_narrow {bytes : List UInt8} {box : RawBox} {a : Atom} (h : Holds bytes box a)
    (hheader : box.headerSize = 8) : box.size = 8 + (bodyOf bytes box).length := by
  rw [h.size, Atom.size, ← h.headerSize, hheader, h.body]

theorem size_of_wide_eq_false {a : Atom} (h : a.wide = false) : a.size = 8 + a.body.length := by
  rw [Atom.size, Atom.headerSize, h]
  rfl

theorem kind_of_filter {f : MetaFile} {kind : List UInt8} {box : RawBox}
    (h : f.boxes.filter (fun b => b.kind = kind) = [box]) : box.kind = kind := by
  have hmem : box ∈ f.boxes.filter (fun b => b.kind = kind) := by rw [h]; simp
  exact of_decide_eq_true (List.mem_filter.mp hmem).2

theorem length_encode_newItem {b b' : IlocBody} {itemId dataOffset length delta boundary : Nat}
    (hw : b'.w = b.w) (hitems : b'.items = b.items.map (ItemEntry.shift b.w delta boundary) ++
      [newItem b.w itemId dataOffset length]) :
    b'.encode.length = b.encode.length + (b.w.minItemBytes + b.w.minExtentBytes) := by
  have hshift : (b.w.encodeItems (b.items.map (ItemEntry.shift b.w delta boundary))).length =
      (b.w.encodeItems b.items).length := length_encodeItems_shift _ _ _ _
  have hnew : (b.w.encodeItems [newItem b.w itemId dataOffset length]).length =
      b.w.minItemBytes + b.w.minExtentBytes := by
    rw [IlocWidths.encodeItems_cons, IlocWidths.encodeItems, List.flatMap_nil, List.append_nil,
      b.w.length_encodeItem, minItemBytes_eq]
    exact congrArg _ (Nat.one_mul _)
  rw [b'.length_encode, b.length_encode, IlocBody.itemsStart, IlocBody.itemsStart, hw, hitems,
    IlocWidths.encodeItems_append, List.length_append, hshift, hnew]
  omega

theorem exists_inserted {input xmp output : List UInt8} {layout : MetaLayout}
    {located : LocatedXmp} {f : MetaFile} {b : IlocBody} (h : ReadAs input layout f)
    (hl : Located input layout located b.layout) (hbody : bodyOf input layout.iloc = b.encode)
    (parts : InsertionParts input xmp layout b.layout located output) :
    ∃ layout' f' b', Inserted input xmp output layout located parts.describedItemIds parts.delta f
      b layout' f' b' := by
  have hoffset := parts.offset_lt
  have hinput {box : RawBox} : (bodyOf input box).length < 2 ^ 64 :=
    Nat.lt_of_le_of_lt (length_bodyOf_le input box) (by omega)
  have hxmp : xmp.length < 2 ^ 64 := by
    have happended := parts.appended_eq
    simp only [boxWithBody, bind_eq_ok, require_eq_ok, checkedAdd_eq_some] at happended
    obtain ⟨_, ⟨hlt, -⟩, -⟩ := happended
    omega
  have hbounded := bounded_of_parseIinf hl.parseIinf_eq
  obtain ⟨-, hdescribed⟩ := mem_of_insertionDescribedItemIds parts.described
  have hsmall : ∀ itemId ∈ parts.describedItemIds, itemId < 2 ^ 32 := by
    intro itemId hmem
    rcases hdescribed itemId hmem with rfl | htone
    · exact h.primaryItemId_lt
    · exact hbounded.small _ (hbounded.toneMap _ htone)
  have hfresh : located.newItemId ∉ b.items.map (·.itemId) := by
    intro hmem
    obtain ⟨e, he, heq⟩ := List.mem_map.mp hmem
    obtain ⟨pos, hpos⟩ := @mem_itemsAt_of_mem b.w b.itemsStart _ _ he
    refine hl.fresh ?_
    rw [← heq]
    exact hl.known _ hpos
  have hid : located.newItemId < 2 ^ 64 := Nat.lt_trans parts.itemId_lt (by decide)
  -- the three boxes
  obtain ⟨iinfBody, entry, bodies, hiinfBox, hiinfLen, hparse, hbodies, hbodies', hentry⟩ :=
    appendIinfEntry_eq_ok hl.parseIinf_eq hinput parts.itemId_lt hl.fresh parts.iinf_eq
  rw [kind_of_filter h.iinf] at hiinfBox
  obtain ⟨iinf, hiinfKind, hiinfWide, rfl, hiinf⟩ := exists_of_boxWithBody (by decide) hiinfBox
  have hirefKind : ∀ box ∈ layout.iref, box.kind = ascii "iref" := by
    intro box hbox
    have hfound := h.iref
    rw [Option.mem_def.mp hbox] at hfound
    exact kind_of_filter hfound
  obtain ⟨irefBody, hirefBox, hirefLen, hpairs⟩ :=
    describeInIref_eq_ok hirefKind (fun _ _ => hinput) parts.itemId_lt hsmall parts.iref_eq
  obtain ⟨iref, hirefKind', hirefWide, rfl, hiref⟩ := exists_of_boxWithBody (by decide) hirefBox
  obtain ⟨placeholder, hpw, hpitems, hpbox⟩ := appendIlocEntry_eq_ok hbody (hbody ▸ hinput) hid
    (by omega) hxmp hfresh parts.placeholder_eq
  obtain ⟨b', hw, hitems, hilocBox⟩ := appendIlocEntry_eq_ok hbody (hbody ▸ hinput) hid
    (by omega) hxmp hfresh parts.iloc_eq
  have hilocKind := kind_of_filter h.iloc
  rw [hilocKind] at hpbox hilocBox
  obtain ⟨p, -, hpWide, hpBody, hp⟩ := exists_of_boxWithBody (by decide) hpbox
  obtain ⟨iloc, hilocKind', hilocWide, hilocBody, hiloc⟩ :=
    exists_of_boxWithBody (by decide) hilocBox
  have hsame : parts.placeholderIloc.length = parts.newIloc.length := by
    rw [hp, hiloc, p.length_encode, iloc.length_encode, size_of_wide_eq_false hpWide,
      size_of_wide_eq_false hilocWide, hpBody, hilocBody, length_encode_newItem hpw hpitems,
      length_encode_newItem hw hitems]
  obtain ⟨f', mdat, hbytes, hbefore, hlead, hchildren, hafter, hmdatKind, hmdatWide, hmdatBody,
    hmeta⟩ := exists_file_of_parts h parts hiinf hiref hiloc hsame
  -- what is read of them
  obtain ⟨oldIinf, holdIinf, hholdsIinf⟩ := h.exists_holds h.iinf
  obtain ⟨oldIloc, holdIloc, hholdsIloc⟩ := h.exists_holds h.iloc
  obtain ⟨oldIref, holdIref, hbodyIref, -⟩ := h.exists_iref
  have hextra : ∀ a ∈ (if layout.iref.isNone then [iref] else []), a.kind = ascii "iref" := by
    intro a ha
    split at ha
    · rw [List.mem_singleton.mp ha, hirefKind']
    · cases ha
  have hiref' : ∀ a ∈ [iref], a.kind = ascii "iref" := fun a ha => by
    rw [List.mem_singleton.mp ha, hirefKind']
  obtain ⟨hf1, hf2, hf3⟩ := filter_flatMap_substitute hiinfKind hextra hiref' hilocKind'
    holdIinf holdIloc
  rw [← hchildren] at hf1 hf2 hf3
  have hf4 : f'.children.filter (fun a => a.kind = ascii "iref") = (some iref).toList := by
    rw [hchildren]
    cases oldIref with
    | none =>
        have hnone : layout.iref.isNone = true := by
          rw [Option.map_none, Option.map_eq_none_iff] at hbodyIref
          rw [hbodyIref]
          rfl
        rw [filter_iref_of_none hiinfKind hextra hiref' hilocKind' holdIinf holdIref, if_pos hnone]
        rfl
    | some old =>
        have hsome : ¬ layout.iref.isNone = true := by
          obtain ⟨box, hbox, -⟩ := Option.map_eq_some_iff.mp hbodyIref
          rw [hbox]
          exact Bool.false_ne_true
        rw [if_neg hsome, filter_iref_of_some hiinfKind hiref' hilocKind', holdIref]
        rfl
  have hfirst : ∀ c rest, f.children = c :: rest → c.kind = ascii "hdlr" →
      ∃ rest', f'.children = c :: rest' := by
    intro c rest hcons hc
    have hkept : substitute (iinf :: if layout.iref.isNone then [iref] else []) [iref] [iloc] c =
        [c] := by
      unfold substitute
      rw [hc, if_neg (by decide), if_neg (by decide), if_neg (by decide)]
    rw [hchildren, hcons, List.flatMap_cons, hkept]
    exact ⟨_, rfl⟩
  obtain ⟨layout', hedited⟩ := exists_edited h hbefore hlead (by
    rw [hafter, List.forall_mem_append]
    refine ⟨fun a ha => h.alone a (List.mem_append_right _ ha), ?_⟩
    rw [List.forall_mem_singleton, hmdatKind]
    decide) hfirst hf1 hf2 hf4 hf3 ⟨hiinfWide, hilocWide⟩ (fun a ha => by
      rw [← Option.mem_some_iff.mp ha]
      exact hirefWide)
  have hread := hedited.readAs
  have hiinfRead := hedited.iinf.body
  have hilocRead := hedited.iloc.body
  have hirefRead := hedited.iref
  rw [hbytes] at hread hiinfRead hilocRead hirefRead
  obtain ⟨box, hbox, hboxRead⟩ : ∃ box, layout'.iref = some box ∧ Holds output box iref := by
    cases hopt : layout'.iref with
    | none =>
        rw [hopt] at hirefRead
        exact hirefRead.elim
    | some box =>
        rw [hopt] at hirefRead
        exact ⟨box, rfl, hirefRead⟩
  have hmdatSize : mdat.size = 8 + xmp.length := by
    rw [size_of_wide_eq_false hmdatWide, hmdatBody]
  refine ⟨layout', f', b', {
    readAs := hread
    metaStart := hedited.metaStart
    metaSize := by rw [hread.metaSize_eq, hmeta]
    primaryItemId := hedited.primaryItemId
    prefixSize := by rw [hread.prefixSize, hlead, h.prefixSize]
    before := hbefore
    after := ⟨mdat, hafter, hmdatKind, hmdatWide, hmdatBody⟩
    parseIinf_eq := by rw [parseIinf, hiinfRead, hparse]
    entries := ⟨bodies, entry, hbodies, by rw [hiinfRead]; exact hbodies', hentry⟩
    references := ⟨box, hbox, fun referenceType => ?_⟩
    iloc := hilocRead.trans hilocBody
    items := hitems
    length := ?_
    growth := ?_ }⟩
  case refine_1 =>
    obtain ⟨pairs, hpairs, hpairs'⟩ := hpairs referenceType
    refine ⟨pairs, hpairs, ?_⟩
    rw [itemReferencePairs, hboxRead.body, hpairs']
  case refine_2 =>
    have hin : input.length = (encodeAll f.before).length + f.metaAtom.size +
        (encodeAll f.after).length := by
      rw [← h.bytes_eq, MetaFile.bytes, MetaFile.top]
      simp [Nat.add_assoc]
    have hout : output.length = (encodeAll f.before).length + f'.metaAtom.size +
        (encodeAll f.after).length + mdat.size := by
      rw [← hbytes, MetaFile.bytes, MetaFile.top, hbefore, hafter]
      simp [Nat.add_assoc]
    rw [hout, hin, hmeta, hmdatSize, h.metaSize_eq]
    omega
  case refine_3 =>
    have hdelta := parts.delta_eq
    have hiinfSize := size_of_narrow hholdsIinf h.narrow.1
    have hilocSize := size_of_narrow hholdsIloc h.narrow.2
    have hirefSize : (layout.iref.map (·.size)).getD 0 + (if layout.iref.isNone then 12 else 0) =
        8 + irefLength input layout.iref := by
      unfold irefLength
      cases hopt : layout.iref with
      | none => rfl
      | some box =>
          have hfound := h.iref
          rw [hopt] at hfound
          obtain ⟨a, -, ha⟩ := h.exists_holds hfound
          exact size_of_narrow ha (h.narrow_iref box (by rw [hopt]; rfl))
    have hplaceholder : parts.placeholderIloc.length =
        layout.iloc.size + (b.w.minItemBytes + b.w.minExtentBytes) := by
      rw [hsame, hiloc, iloc.length_encode, size_of_wide_eq_false hilocWide, hilocBody,
        length_encode_newItem hw hitems, hilocSize, hbody, Nat.add_assoc]
    have hnewIinf : parts.newIinf.length = layout.iinf.size + infeSize located.newItemId := by
      rw [hiinf, iinf.length_encode, size_of_wide_eq_false hiinfWide, hiinfLen, hiinfSize,
        Nat.add_assoc]
    have hnewIref : parts.newIref.length = 8 + (irefLength input layout.iref + referenceSize
        (newReferenceWidth input layout.iref located.newItemId parts.describedItemIds)
        parts.describedItemIds.length) := by
      rw [hiref, iref.length_encode, size_of_wide_eq_false hirefWide, hirefLen]
    simp only [newMetaLen, Option.bind_eq_bind, Option.bind_eq_some_iff, checkedAdd_eq_some,
      checkedSub_eq_some] at hdelta
    obtain ⟨_, ⟨-, rfl⟩, _, ⟨-, rfl⟩, _, ⟨-, rfl⟩, _, ⟨-, rfl⟩, _, ⟨-, rfl⟩, -, hdelta⟩ := hdelta
    unfold insertionGrowth
    omega

/-! ## the new item is the packet of the primary image -/

theorem filter_of_selectItemId {pairs : List (Nat × List Nat)} {primaryItemId : Nat}
    {itemIds : List Nat} {severalPrimary severalUnattributed : String}
    (h : selectItemId pairs primaryItemId itemIds severalPrimary severalUnattributed = .ok none) :
    itemIds.filter (fun itemId =>
      pairs.any (fun pair => pair.1 = itemId && pair.2.contains primaryItemId)) = [] := by
  unfold selectItemId at h
  split at h
  · cases h
  · cases h
  · next hnone => exact hnone

/-- A new item that describes the primary image is selected among others that do not. -/
theorem selectItemId_new {pairs : List (Nat × List Nat)} {primaryItemId newItemId : Nat}
    {itemIds describedItemIds : List Nat} {severalPrimary severalUnattributed : String}
    (hnone : ∀ itemId ∈ itemIds,
      ¬ pairs.any (fun pair => pair.1 = itemId && pair.2.contains primaryItemId) = true)
    (hfresh : newItemId ∉ itemIds) (hdescribed : primaryItemId ∈ describedItemIds) :
    selectItemId (pairs ++ [(newItemId, describedItemIds)]) primaryItemId (itemIds ++ [newItemId])
      severalPrimary severalUnattributed = .ok (some newItemId) := by
  have hfilter : (itemIds ++ [newItemId]).filter (fun itemId =>
      (pairs ++ [(newItemId, describedItemIds)]).any
        (fun pair => pair.1 = itemId && pair.2.contains primaryItemId)) = [newItemId] := by
    rw [List.filter_append, List.filter_eq_nil_iff.mpr, List.nil_append]
    · simp [hdescribed]
    · intro itemId hmem hany
      rw [List.any_append, Bool.or_eq_true] at hany
      rcases hany with hany | hany
      · exact hnone itemId hmem hany
      · have heq : newItemId = itemId := by
          simp only [List.any_cons, List.any_nil, Bool.or_false, Bool.and_eq_true,
            decide_eq_true_eq] at hany
          exact hany.1
        exact hfresh (heq ▸ hmem)
  unfold selectItemId
  rw [hfilter]
  rfl

theorem not_described_of_selectXmpItemId {bytes : List UInt8} {iref : Option RawBox}
    {primaryItemId : Nat} {itemIds : List Nat} {pairs : List (Nat × List Nat)}
    (h : selectXmpItemId bytes iref primaryItemId itemIds = .ok none)
    (hpairs : referencePairs bytes iref (ascii "cdsc") = .ok pairs) :
    ∀ itemId ∈ itemIds,
      ¬ pairs.any (fun pair => pair.1 = itemId && pair.2.contains primaryItemId) = true := by
  unfold selectXmpItemId at h
  split at h
  · exact nofun
  · cases h
  · cases h
  · next box _ =>
      have hcdsc : cdscPairs bytes box = .ok pairs := hpairs
      rw [hcdsc, ok_bind] at h
      exact fun itemId hmem => List.filter_eq_nil_iff.mp (filter_of_selectItemId h) itemId hmem

theorem settled_of_inserted {input xmp output : List UInt8} {layout layout' : MetaLayout}
    {located : LocatedXmp} {describedItemIds : List Nat} {delta : Nat} {f f' : MetaFile}
    {b b' : IlocBody}
    (h : ReadAs input layout f) (hl : Located input layout located b.layout)
    (hi : Inserted input xmp output layout located describedItemIds delta f b layout' f' b')
    (hlen : output.length < 2 ^ 64) (heif : isHeifContent input = true)
    (hsize : layout.meta.size < 2 ^ 24) (hnone : located.xmpItemId = none)
    (hdescribed : layout.primaryItemId ∈ describedItemIds)
    (hclear : ∀ e ∈ b.items, e.Clear input.length layout.meta.start layout.meta.stop) :
    ∃ located' location', Settled output xmp layout' b'.layout located' location' := by
  obtain ⟨mdat, hafter, hkind, hwide, hbody⟩ := hi.after
  have hlength := hi.length
  obtain ⟨iref, hiref, hreferences⟩ := hi.references
  obtain ⟨pairs, hpairs, hpairs'⟩ := hreferences (ascii "cdsc")
  have hbounded := bounded_of_parseIinf hl.parseIinf_eq
  have hselected := hl.selected
  rw [hnone] at hselected
  have hnew : selectXmpItemId output layout'.iref layout'.primaryItemId
      (located.iinf.withXmp located.newItemId).xmpItemIds = .ok (some located.newItemId) := by
    have hcdsc : cdscPairs output iref =
        .ok (pairs ++ [(located.newItemId, describedItemIds)]) := hpairs'
    have hselect := @selectItemId_new _ _ _ _ _
      "multiple XMP items describe the primary image"
      "multiple XMP items have no primary-image association"
      (not_described_of_selectXmpItemId hselected hpairs)
      (fun hmem => hl.fresh (hbounded.xmp _ hmem)) hdescribed
    rw [hi.primaryItemId, hiref]
    show selectXmpItemId output (some iref) layout.primaryItemId
      (located.iinf.xmpItemIds ++ [located.newItemId]) = _
    generalize hids : located.iinf.xmpItemIds ++ [located.newItemId] = itemIds at *
    cases itemIds with
    | nil => cases (List.append_ne_nil_of_right_ne_nil _ (List.cons_ne_nil _ _)) hids
    | cons first others =>
        simp only [selectXmpItemId, hcdsc, ok_bind]
        exact hselect
  have hrange : output.length - xmp.length - 8 = input.length + delta := by omega
  have hstop : layout'.meta.stop = layout.meta.stop + delta := by
    rw [RawBox.stop, RawBox.stop, hi.metaStart, hi.metaSize, Nat.add_assoc]
  have hsum (w : IlocWidths) (dataOffset : Nat) : (if w.offsetSize ≠ 0 then 0 else dataOffset) +
      (if w.offsetSize ≠ 0 then dataOffset else 0) = dataOffset := by
    split <;> omega
  refine @settled_of_appended _ _ _ _ _ _ _ _
    (b.items.map (ItemEntry.shift b.w delta layout.meta.stop)) []
    (newItem b.w located.newItemId (input.length + delta + 8) xmp.length) _
    hi.readAs hlen ?_ hafter hkind hwide hbody hi.parseIinf_eq hi.iloc ?_ hnew hi.items rfl rfl ?_
    rfl ?_
  · have hsame := isHeifContent_of_before h heif hsize hi.before
    rwa [hi.readAs.bytes_eq] at hsame
  · intro e he
    rw [hi.items, List.mem_append, List.mem_singleton] at he
    rcases he with he | rfl
    · obtain ⟨old, hold, rfl⟩ := List.mem_map.mp he
      rw [shift_itemId]
      obtain ⟨pos, hpos⟩ := @mem_itemsAt_of_mem b.w b.itemsStart _ _ hold
      exact List.mem_append_left _ (hl.known _ hpos)
    · exact List.mem_append_right _ List.mem_cons_self
  · rw [hlength]
    exact congrArg (· + xmp.length) (hsum b.w (input.length + delta + 8))
  · intro e he
    rw [List.append_nil] at he
    obtain ⟨old, hold, rfl⟩ := List.mem_map.mp he
    rw [hrange, hi.metaStart, hstop]
    exact (hclear old hold).shift (by omega)

end Kei.Heif
