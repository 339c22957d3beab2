import Kei.Heif.Entries
import Kei.Heif.Payloads
import Kei.Heif.Ranges

/-!
# Kei.Heif.Settled

Files that a rewrite with the same packet leaves as they are.

The packet is the only extent of its item, inside an `mdat` box and shared
with no other item, so that it is replaced where it is.  Each of the three
ways to write a packet makes such a file.
-/

namespace Kei.Heif

open Bytes Fallible

/-- The bytes of the place are the packet, and blanks behind it. -/
def Padded (bytes xmp : List UInt8) (location : XmpLocation) : Prop :=
  slice? bytes location.extentStart (location.extentStart + location.extentLength) =
    some (xmp ++ List.replicate (location.extentLength - xmp.length) 0x20)

/-- A file whose packet is where a rewrite replaces it. -/
structure Settled (bytes xmp : List UInt8) (layout : MetaLayout) (iloc : IlocLayout)
    (located : LocatedXmp) (location : XmpLocation) : Prop where
  heif : isHeifContent bytes = true
  parseIloc_eq : parseIloc bytes layout.iloc = .ok iloc
  locateXmp_eq : locateXmp bytes layout.iinf layout.iloc layout.iref layout.primaryItemId =
    .ok located
  existing : located.existing = some location
  reject : rejectMetaOverlappingItems iloc layout.meta = .ok ()
  resolve : ensureExtentsResolve bytes iloc = .ok ()
  single : ∃ item, iloc.items.find? (fun item => item.itemId = location.itemId) = some item ∧
    item.extents.length = 1
  unshared : itemExtentIsShared iloc location.itemId location.extentStart location.extentLength =
    false
  inMdat : extentIsWithinMdatPayload bytes location.extentStart location.extentLength = .ok true
  fits : location.extentStart + location.extentLength < 2 ^ 64
  packet_le : xmp.length ≤ location.extentLength
  padded : Padded bytes xmp location

variable {layout : MetaLayout}

theorem Settled.rewriteXmp_eq {bytes xmp : List UInt8} {iloc : IlocLayout} {located : LocatedXmp}
    {location : XmpLocation} (h : Settled bytes xmp layout iloc located location)
    (hlayout : findMetaLayout bytes = .ok layout) : rewriteXmp bytes xmp = .ok bytes := by
  obtain ⟨item, hitem, hsingle⟩ := h.single
  obtain ⟨-, hbound, hdata⟩ := slice?_eq_some.mp h.padded
  have hadd : checkedAdd location.extentStart location.extentLength =
      some (location.extentStart + location.extentLength) := checkedAdd_eq_some.mpr ⟨h.fits, rfl⟩
  have hlen : (xmp ++ List.replicate (location.extentLength - xmp.length) (0x20 : UInt8)).length =
      location.extentLength := by
    rw [List.length_append, List.length_replicate]
    exact Nat.add_sub_cancel' h.packet_le
  have hsame := @overwrite_slice _ bytes
    (xmp ++ List.replicate (location.extentLength - xmp.length) 0x20) location.extentStart
    (by rw [hlen]; exact hdata)
  simp only [rewriteXmp, ensure_of h.heif, hlayout, h.parseIloc_eq, h.locateXmp_eq, h.reject,
    h.resolve, h.existing, ok_bind, replaceXmp, hitem, require_some, ensure_of hsingle, hadd,
    ensure_of hbound, h.inMdat, h.unshared]
  rw [if_pos ⟨h.packet_le, trivial, trivial⟩, hsame]
  rfl

/-! ## a packet behind the file -/

theorem length_bodyOf_le (bytes : List UInt8) (box : RawBox) :
    (bodyOf bytes box).length ≤ bytes.length := by
  unfold bodyOf slice
  rw [List.length_take, List.length_drop]
  omega

/-- A file with the packet in a box of its own behind the others is settled. -/
theorem settled_of_appended {output xmp : List UInt8} {layout : MetaLayout} {f : MetaFile}
    {rest : List Atom} {mdat : Atom} {iinf : IinfLayout} {b : IlocBody}
    {before after : List ItemEntry} {e : ItemEntry} {x : ExtentEntry}
    (h : ReadAs output layout f) (hlen : output.length < 2 ^ 64)
    (heif : isHeifContent output = true) (hafter : f.after = rest ++ [mdat])
    (hkind : mdat.kind = ascii "mdat") (hwide : mdat.wide = false) (hbody : mdat.body = xmp)
    (hiinf : parseIinf output layout.iinf = .ok iinf) (hiloc : bodyOf output layout.iloc = b.encode)
    (hknown : ∀ e ∈ b.items, e.itemId ∈ iinf.itemIds)
    (hselected : selectXmpItemId output layout.iref layout.primaryItemId iinf.xmpItemIds =
      .ok (some e.itemId))
    (hitems : b.items = before ++ e :: after) (hextents : e.extents = [x])
    (hmethod : e.packedMethod % 16 = 0) (hstart : e.extentStart x + xmp.length = output.length)
    (hxlen : x.length = xmp.length)
    (hclear : ∀ e' ∈ before ++ after,
      e'.Clear (output.length - xmp.length - 8) layout.meta.start layout.meta.stop) :
    ∃ located location, Settled output xmp layout b.layout located location := by
  have hstop : e.extentStop x = output.length := by
    rw [← hstart, ← hxlen]
    rfl
  have hfits : e.extentStart x + x.length < 2 ^ 64 := by
    rw [hxlen, hstart]
    exact hlen
  have hparse : parseIloc output layout.iloc = .ok b.layout := by
    rw [parseIloc, hiloc]
    refine parseIlocBody_encode b (Nat.lt_of_le_of_lt ?_ hlen)
    rw [← hiloc]
    exact length_bodyOf_le _ _
  obtain ⟨hlocate, item, hitem, hsingle⟩ := @locateItem_eq output _ _ _ _ _ hitems hextents hmethod
    (by rwa [hstop]) (Nat.le_of_eq hstop)
  have hknown' : ∀ item ∈ b.layout.items, item.itemId ∈ iinf.itemIds := by
    intro item hitem
    obtain ⟨pos, e', he', rfl⟩ := exists_of_mem_itemsAt hitem
    exact hknown e' he'
  have htop : f.top = (f.before ++ f.metaAtom :: rest) ++ [mdat] := by
    rw [MetaFile.top, hafter]
    simp
  have hmdat : mdat.size = xmp.length + 8 := by
    rw [Atom.size, Atom.headerSize, hwide, hbody]
    exact Nat.add_comm _ _
  have hbytes : output = encodeAll (f.before ++ f.metaAtom :: rest) ++ mdat.encode := by
    rw [← h.bytes_eq, MetaFile.bytes, htop]
    simp
  have hlength : (encodeAll (f.before ++ f.metaAtom :: rest)).length + (xmp.length + 8) =
      output.length := by
    rw [← hmdat, ← mdat.length_encode, ← List.length_append, ← hbytes]
  have hmeta : layout.meta.stop ≤ output.length - xmp.length - 8 := by
    rw [h.metaStop_eq, MetaFile.metaStart]
    simp only [encodeAll_append, encodeAll_cons, List.length_append, Atom.length_encode] at hlength
    omega
  have hdisjoint : ∀ e' ∈ b.items, e'.itemId ≠ e.itemId → e' ∈ before ++ after := by
    intro e' he' hne
    rw [hitems, List.mem_append, List.mem_cons] at he'
    rcases he' with he' | rfl | he'
    · exact List.mem_append_left _ he'
    · exact absurd rfl hne
    · exact List.mem_append_right _ he'
  have hall : ∀ e' ∈ b.items, e'.Clear output.length layout.meta.start layout.meta.stop := by
    intro e' he'
    rw [hitems, List.mem_append, List.mem_cons] at he'
    have hweaken (hmem : e' ∈ before ++ after) :
        e'.Clear output.length layout.meta.start layout.meta.stop := fun hm x' hx' => by
      obtain ⟨hlt, hle, hno⟩ := hclear e' hmem hm x' hx'
      exact ⟨hlt, by omega, hno⟩
    rcases he' with he' | rfl | he'
    · exact hweaken (List.mem_append_left _ he')
    · intro _ x' hx'
      rw [hextents, List.mem_singleton] at hx'
      subst hx'
      exact ⟨by rwa [hstop], Nat.le_of_eq hstop, by omega⟩
    · exact hweaken (List.mem_append_right _ he')
  obtain ⟨hreject, hresolve⟩ := clear_iff.mpr hall
  refine ⟨⟨some ⟨e.itemId, e.extentStart x, x.length⟩, some e.itemId,
    b.layout.items.foldl (fun maxItemId item => max maxItemId item.itemId) iinf.maxItemId, iinf⟩,
    ⟨e.itemId, e.extentStart x, x.length⟩, {
    heif
    parseIloc_eq := hparse
    locateXmp_eq := ?_
    existing := rfl
    reject := hreject
    resolve := hresolve
    single := ⟨item, hitem, hsingle⟩
    unshared := itemExtentIsShared_eq_false hfits fun e' he' hne hm x' hx' => ?_
    inMdat := ?_
    fits := hfits
    packet_le := Nat.le_of_eq hxlen.symm
    padded := ?_ }⟩
  case refine_1 =>
    simp only [locateXmp, hiinf, hparse, ok_bind, ensure_of hknown', hselected, Option.bind_some,
      hlocate]
    rfl
  case refine_2 =>
    obtain ⟨hlt, hle, -⟩ := hclear e' (hdisjoint e' he' hne) hm x' hx'
    have hbehind : e'.extentStop x' ≤ e.extentStart x := by omega
    exact ⟨hlt, hbehind⟩
  case refine_3 =>
    have hscan := scan_top (f := f) (by rwa [h.bytes_eq])
    rw [h.bytes_eq, htop, rawBoxes_append, Nat.zero_add] at hscan
    have hadd : checkedAdd (e.extentStart x) x.length = some output.length :=
      checkedAdd_eq_some.mpr ⟨by omega, by omega⟩
    simp only [extentIsWithinMdatPayload, hadd, require_some, ok_bind, hscan, pure_eq_ok]
    refine List.any_eq_true.mpr
      ⟨mdat.rawBox (encodeAll (f.before ++ f.metaAtom :: rest)).length, ?_, ?_⟩
    · rw [List.mem_filter]
      exact ⟨List.mem_append_right _ List.mem_cons_self, decide_eq_true hkind⟩
    · have hheader : mdat.headerSize = 8 := by rw [Atom.headerSize, hwide]; rfl
      rw [Bool.and_eq_true, decide_eq_true_eq, decide_eq_true_eq, Atom.rawBox_bodyStart,
        Atom.rawBox_stop, hheader, hmdat]
      omega
  case refine_4 =>
    rw [Atom.encode, hbody, ← List.append_assoc] at hbytes
    have hhead : e.extentStart x =
        (encodeAll (f.before ++ f.metaAtom :: rest) ++ mdat.header).length := by
      have hheader : mdat.headerSize = 8 := by rw [Atom.headerSize, hwide]; rfl
      rw [List.length_append, mdat.length_header, hheader]
      omega
    have hpad : x.length - xmp.length = 0 := by omega
    unfold Padded
    rw [hpad, List.replicate_zero, List.append_nil]
    have hbound : e.extentStart x + x.length ≤ output.length := Nat.le_of_eq hstop
    refine slice?_eq_some.mpr ⟨Nat.le_add_right _ _, hbound, ?_⟩
    rw [hhead, hxlen, hbytes]
    exact (slice_append_add _ xmp 0 xmp.length).trans (slice_zero_length xmp)

/-! ## the brand of a file -/

variable {bytes : List UInt8}

theorem slice?_take {start stop n : Nat} (h : stop ≤ n) :
    slice? (bytes.take n) start stop = slice? bytes start stop := by
  have hslice : slice (bytes.take n) start stop = slice bytes start stop := by
    unfold slice
    rw [List.drop_take, List.take_take, Nat.min_eq_left (by omega)]
  have hbound : stop ≤ (bytes.take n).length ↔ stop ≤ bytes.length := by
    rw [List.length_take]
    omega
  unfold slice?
  simp only [hslice, hbound]

theorem isHeifContent_congr {bytes bytes' : List UInt8} (h : bytes'.take 12 = bytes.take 12) :
    isHeifContent bytes' = isHeifContent bytes := by
  unfold isHeifContent
  rw [← @slice?_take bytes' _ _ 12 (by decide),
    ← @slice?_take bytes' _ _ 12 (by decide), h, slice?_take (by decide),
    slice?_take (by decide)]

theorem brand_of_isHeifContent (h : isHeifContent bytes = true) :
    slice? bytes 4 8 = some (ascii "ftyp") ∧
      ∃ brand, slice? bytes 8 12 = some brand ∧ (0 : UInt8) ∉ brand := by
  unfold isHeifContent at h
  split at h
  · next boxType brand htype hbrand =>
      rw [Bool.and_eq_true, decide_eq_true_eq, List.any_eq_true] at h
      obtain ⟨rfl, known, hknown, heq⟩ := h
      refine ⟨htype, brand, hbrand, ?_⟩
      rw [of_decide_eq_true heq]
      have hall : ∀ known ∈ heifBrands, (0 : UInt8) ∉ ascii known := by decide
      exact hall known hknown
  · cases h

/-- The brand of a file is before a `meta` box that can be rewritten. -/
theorem twelve_le_metaStart {f : MetaFile} (h : ReadAs bytes layout f)
    (heif : isHeifContent bytes = true) (hsize : layout.meta.size < 2 ^ 24) : 12 ≤ f.metaStart := by
  obtain ⟨htype, brand, hbrand, hzero⟩ := brand_of_isHeifContent heif
  have hdrop : bytes.drop f.metaStart = f.metaAtom.encode ++ encodeAll f.after := by
    rw [← h.bytes_eq, MetaFile.bytes, MetaFile.top, encodeAll_append, encodeAll_cons]
    exact List.drop_left
  refine Nat.le_of_not_lt fun hlt => ?_
  cases hbefore : f.before with
  | nil =>
      have hstart : f.metaStart = 0 := by rw [MetaFile.metaStart, hbefore]; rfl
      rw [hstart] at hdrop
      have hkind := slice?_kind hdrop
      rw [Nat.zero_add, Nat.zero_add, htype, Option.some.injEq] at hkind
      exact absurd hkind (by decide : ascii "ftyp" ≠ ascii "meta")
  | cons a rest =>
      have hle : 8 ≤ f.metaStart := by
        rw [MetaFile.metaStart, hbefore, encodeAll_cons, List.length_append, a.length_encode]
        exact Nat.le_trans a.eight_le_size (Nat.le_add_right _ _)
      obtain ⟨tail, htail⟩ := encode_eq_zero_cons (c := f.metaAtom) (by rwa [← h.metaSize_eq])
      -- the first byte of the size of `meta` would be in the brand
      refine hzero ?_
      obtain ⟨-, hbound, rfl⟩ := slice?_eq_some.mp hbrand
      have hget : (slice bytes 8 12)[f.metaStart - 8]? = some 0 := by
        unfold slice
        rw [List.getElem?_take, if_pos (by omega), List.getElem?_drop,
          Nat.add_sub_cancel' hle]
        have hfirst := congrArg (fun l : List UInt8 => l[0]?) hdrop
        simpa [htail] using hfirst
      exact List.mem_of_getElem? hget

/-- What is made of a file behind its first boxes is of the same brand. -/
theorem isHeifContent_of_before {f f' : MetaFile} (h : ReadAs bytes layout f)
    (heif : isHeifContent bytes = true) (hsize : layout.meta.size < 2 ^ 24)
    (hbefore : f'.before = f.before) : isHeifContent f'.bytes = true := by
  have hle := twelve_le_metaStart h heif hsize
  rw [← heif]
  refine isHeifContent_congr ?_
  rw [← h.bytes_eq, MetaFile.bytes, MetaFile.bytes, MetaFile.top, MetaFile.top, hbefore,
    encodeAll_append, encodeAll_append, List.take_append_of_le_length hle,
    List.take_append_of_le_length hle]

/-! ## a packet that is replaced -/

theorem selectXmpItemId_congr {bytes bytes' : List UInt8} {iref iref' : Option RawBox}
    (h : iref'.map (bodyOf bytes') = iref.map (bodyOf bytes)) (primaryItemId : Nat)
    (itemIds : List Nat) :
    selectXmpItemId bytes' iref' primaryItemId itemIds =
      selectXmpItemId bytes iref primaryItemId itemIds := by
  cases iref with
  | none =>
      rw [Option.map_none, Option.map_eq_none_iff] at h
      subst h
      rcases itemIds with _ | ⟨first, _ | ⟨second, others⟩⟩ <;> rfl
  | some box =>
      obtain ⟨box', rfl, hbody⟩ := Option.map_eq_some_iff.mp h
      have hpairs : cdscPairs bytes' box' = cdscPairs bytes box := by
        unfold cdscPairs itemReferencePairs
        rw [hbody]
      rcases itemIds with _ | ⟨first, others⟩
      · rfl
      · simp only [selectXmpItemId, hpairs]

/-- The packet is found by what `meta` says and the length of the file. -/
theorem locateXmp_congr {bytes bytes' : List UInt8}
    (hiinf : bodyOf bytes' layout.iinf = bodyOf bytes layout.iinf)
    (hiloc : bodyOf bytes' layout.iloc = bodyOf bytes layout.iloc)
    (hiref : layout.iref.map (bodyOf bytes') = layout.iref.map (bodyOf bytes))
    (hlen : bytes'.length = bytes.length) :
    locateXmp bytes' layout.iinf layout.iloc layout.iref layout.primaryItemId =
      locateXmp bytes layout.iinf layout.iloc layout.iref layout.primaryItemId := by
  have hlocate : locateItem bytes' = locateItem bytes := by
    funext items itemId
    unfold locateItem
    rw [hlen]
  unfold locateXmp parseIinf parseIloc
  simp only [hiinf, hiloc, selectXmpItemId_congr hiref, hlocate]

theorem sixteen_le_bodyStart {f : MetaFile} {box : RawBox} (hbytes : f.bytes = bytes)
    (heif : isHeifContent bytes = true) (hbox : box ∈ rawBoxes 0 f.top)
    (hkind : box.kind ≠ ascii "ftyp") : 16 ≤ box.bodyStart := by
  obtain ⟨htype, -⟩ := brand_of_isHeifContent heif
  obtain ⟨before, a, after, htop, rfl⟩ := exists_of_mem_rawBoxes hbox
  have hheader := a.eight_le_headerSize
  rw [Atom.rawBox_bodyStart]
  cases before with
  | nil =>
      have hdrop : bytes.drop 0 = a.encode ++ encodeAll after := by
        rw [← hbytes, MetaFile.bytes, htop]
        rfl
      have hfirst := slice?_kind hdrop
      rw [Nat.zero_add, Nat.zero_add, htype, Option.some.injEq] at hfirst
      exact absurd hfirst.symm hkind
  | cons first rest =>
      have hsize := first.eight_le_size
      rw [encodeAll_cons, List.length_append, first.length_encode]
      omega

theorem settled_of_overwrite {input xmp : List UInt8} {iloc : IlocLayout} {located : LocatedXmp}
    {location : XmpLocation} {item : IlocItem} {f : MetaFile} (h : ReadAs input layout f)
    (hlen : input.length < 2 ^ 64) (heif : isHeifContent input = true)
    (hiloc : parseIloc input layout.iloc = .ok iloc)
    (hlocated : locateXmp input layout.iinf layout.iloc layout.iref layout.primaryItemId =
      .ok located) (hexisting : located.existing = some location)
    (hreject : rejectMetaOverlappingItems iloc layout.meta = .ok ())
    (hresolve : ensureExtentsResolve input iloc = .ok ())
    (hitem : iloc.items.find? (fun item => item.itemId = location.itemId) = some item)
    (hsingle : item.extents.length = 1)
    (hbound : location.extentStart + location.extentLength ≤ input.length)
    (hshared : itemExtentIsShared iloc location.itemId location.extentStart
      location.extentLength = false)
    (hmdat : extentIsWithinMdatPayload input location.extentStart location.extentLength = .ok true)
    (hpacket : xmp.length ≤ location.extentLength) :
    let output := overwrite input location.extentStart
      (xmp ++ List.replicate (location.extentLength - xmp.length) 0x20)
    ∃ f', ReadAs output layout f' ∧ Settled output xmp layout iloc located location := by
  intro output
  have hpad : (xmp ++ List.replicate (location.extentLength - xmp.length) (0x20 : UInt8)).length =
      location.extentLength := by
    rw [List.length_append, List.length_replicate]
    exact Nat.add_sub_cancel' hpacket
  have hadd : checkedAdd location.extentStart location.extentLength =
      some (location.extentStart + location.extentLength) :=
    checkedAdd_eq_some.mpr ⟨by omega, rfl⟩
  have hinside := hmdat
  simp only [extentIsWithinMdatPayload, hadd, require_some, ok_bind, h.scan_top hlen,
    pure_eq_ok] at hinside
  obtain ⟨box, hbox, hrange⟩ := List.any_eq_true.mp hinside
  obtain ⟨hbox, hkind⟩ := List.mem_filter.mp hbox
  have hkind := of_decide_eq_true hkind
  rw [Bool.and_eq_true, decide_eq_true_eq, decide_eq_true_eq] at hrange
  obtain ⟨f', hbytes, hpatched⟩ := @exists_patched _
    (xmp ++ List.replicate (location.extentLength - xmp.length) 0x20) _ _ _
    location.extentStart h hbox
    (by rw [hkind]; decide) hrange.1 (by rw [hpad]; exact hrange.2)
  have hout : f'.bytes = output := hbytes
  have houtlen : output.length = input.length := by
    rw [← hout, hpatched.length, h.bytes_eq]
  have hbody {kind : List UInt8} {only : RawBox}
      (honly : f.boxes.filter (fun b => b.kind = kind) = [only]) :
      bodyOf output only = bodyOf input only := by
    have hmem : only ∈ f.boxes.filter (fun b => b.kind = kind) := by rw [honly]; simp
    rw [← hout, ← h.bytes_eq]
    exact hpatched.bodyOf_eq (List.mem_of_mem_filter hmem)
  have htop' := scan_top (f := f') (by rwa [hout, houtlen])
  rw [hpatched.top, hout] at htop'
  have hread := hpatched.readAs
  rw [hout] at hread
  refine ⟨f', hread, {
    heif := ?_
    parseIloc_eq := ?_
    locateXmp_eq := ?_
    existing := hexisting
    reject := hreject
    resolve := ?_
    single := ⟨item, hitem, hsingle⟩
    unshared := hshared
    inMdat := ?_
    fits := by omega
    packet_le := hpacket
    padded := ?_ }⟩
  case refine_1 =>
    have hbehind := sixteen_le_bodyStart h.bytes_eq heif hbox (by rw [hkind]; decide)
    rw [← heif]
    refine isHeifContent_congr ?_
    rw [show output = input.take location.extentStart ++ _ ++ _ from rfl, List.append_assoc,
      List.take_append_of_le_length (by rw [List.length_take]; omega), List.take_take,
      Nat.min_eq_left (by omega)]
  case refine_2 =>
    rw [← hiloc, parseIloc, parseIloc, hbody h.iloc]
  case refine_3 =>
    rw [← hlocated]
    refine locateXmp_congr (hbody h.iinf) (hbody h.iloc) ?_ houtlen
    have hfound := h.iref
    cases hopt : layout.iref with
    | none => rfl
    | some iref =>
        rw [hopt] at hfound
        exact congrArg some (hbody hfound)
  case refine_4 =>
    rw [ensureExtentsResolve_eq_ok, houtlen]
    exact ensureExtentsResolve_eq_ok.mp hresolve
  case refine_5 =>
    rw [← hmdat]
    simp only [extentIsWithinMdatPayload, h.scan_top hlen, htop']
  case refine_6 =>
    refine slice?_eq_some.mpr ⟨Nat.le_add_right _ _, by rwa [houtlen], ?_⟩
    have hself := @slice_overwrite_self _ input
      (xmp ++ List.replicate (location.extentLength - xmp.length) 0x20) location.extentStart
      (by rwa [hpad])
    rw [hpad] at hself
    exact hself

end Kei.Heif
