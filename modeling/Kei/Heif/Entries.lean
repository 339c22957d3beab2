import Kei.Heif.Edits
import Kei.Heif.Relocations

/-!
# Kei.Heif.Entries

What a new packet adds to the tables of a file's items.

An `iinf` box gains an entry behind those that are there, and an `iref` box a
reference behind those that are there.  Both are read of the new boxes as what
was read of the old ones and one more.
-/

namespace Kei.Heif

open Bytes Fallible

/-! ## boxes of two buffers -/

variable {bytes : List UInt8} {atoms : List Atom}

/-- A loop over boxes that reads their bodies is one over their data. -/
theorem mapM_bodyOf {ε β : Type} {boxes : List RawBox} (f : List UInt8 → Except ε β)
    (h : List.Forall₂ (Holds bytes) boxes atoms) :
    boxes.mapM (fun box => f (bodyOf bytes box)) = atoms.mapM (fun a => f a.body) := by
  induction h with
  | nil => rfl
  | cons hfirst _ ih => rw [List.mapM_cons, List.mapM_cons, ih, hfirst.body]

/-! ## item entries -/

/-- A body: the version and flags, and the entries behind their number. -/
structure IinfBody where
  head : List UInt8
  countSize : Nat
  entries : List Atom
  length_head : head.length = 4
  countSize_eq : head.headD 0 = 0 ∧ countSize = 2 ∨ head.headD 0 = 1 ∧ countSize = 4
  count_lt : entries.length < 256 ^ countSize

namespace IinfBody

variable (b : IinfBody)

def encode : List UInt8 :=
  b.head ++ (toBe b.countSize b.entries.length ++ encodeAll b.entries)

/-- The position of the first entry. -/
def entriesStart : Nat := 4 + b.countSize

/-- What is known before the first entry is read. -/
def empty : IinfLayout := ⟨(b.head.headD 0).toNat, 4, b.countSize, 0, [], [], [], []⟩

theorem headD_encode : b.encode.headD 0 = b.head.headD 0 := by
  obtain ⟨c, cs, hhead⟩ := List.exists_cons_of_length_pos
    (show 0 < b.head.length by rw [b.length_head]; decide)
  rw [encode, hhead]
  rfl

theorem length_encode : b.encode.length = b.entriesStart + (encodeAll b.entries).length := by
  simp only [encode, entriesStart, List.length_append, length_toBe, b.length_head]
  omega

theorem six_le_length_encode : 6 ≤ b.encode.length := by
  rw [b.length_encode, entriesStart]
  rcases b.countSize_eq with ⟨-, h⟩ | ⟨-, h⟩ <;> omega

theorem drop_entriesStart : b.encode.drop b.entriesStart = encodeAll b.entries := by
  rw [encode, ← List.append_assoc]
  exact List.drop_left' (by rw [List.length_append, length_toBe, b.length_head, entriesStart])

theorem holds_entries :
    List.Forall₂ (Holds b.encode) (rawBoxes b.entriesStart b.entries) b.entries :=
  @holds_rawBoxes _ [] _ _ (by rw [b.drop_entriesStart, List.append_nil])

theorem parseIinfCount_encode :
    parseIinfCount b.encode = .ok (4, b.countSize, b.entries.length) := by
  have hread : beNat (slice b.encode 4 (4 + b.countSize)) = b.entries.length := by
    have hmid := slice_append_mid b.head (toBe b.countSize b.entries.length) (encodeAll b.entries)
      (a := 4) (b := 4 + b.countSize) b.length_head.symm (by rw [b.length_head, length_toBe])
    rw [encode, ← List.append_assoc, hmid, beNat_toBe b.count_lt]
  have hlen := b.length_encode
  unfold parseIinfCount
  rw [b.headD_encode]
  rcases b.countSize_eq with ⟨hversion, hsize⟩ | ⟨hversion, hsize⟩
  · rw [hsize] at hread
    rw [hversion, hsize, ← hread]
    rfl
  · rw [hsize] at hread
    rw [entriesStart, hsize] at hlen
    rw [hversion, hsize, ← hread]
    show (ensure _ _ >>= fun _ => Except.ok (4, 4, beNat _)) = _
    rw [ensure_of (by omega)]
    rfl

theorem scan_entries (hlen : b.encode.length < 2 ^ 64) :
    scanRawBoxes b.encode b.entriesStart b.encode.length =
      .ok (rawBoxes b.entriesStart b.entries) := by
  refine scanRawBoxes_encodeAll (slice?_eq_some.mpr ⟨?_, Nat.le_refl _, ?_⟩) hlen
  · rw [b.length_encode]
    exact Nat.le_add_right _ _
  · rw [slice, ← List.length_drop, List.take_length, b.drop_entriesStart]

theorem length_rawBoxes (start : Nat) (atoms : List Atom) :
    (rawBoxes start atoms).length = atoms.length := by
  induction atoms generalizing start with
  | nil => rfl
  | cons a atoms ih => rw [rawBoxes, List.length_cons, ih, List.length_cons]

theorem parseIinfBody_encode (hlen : b.encode.length < 2 ^ 64) :
    parseIinfBody b.encode =
      (rawBoxes b.entriesStart b.entries).foldlM (IinfLayout.add b.encode) b.empty := by
  have hcount := length_rawBoxes b.entriesStart b.entries
  have hscan := b.scan_entries hlen
  simp only [parseIinfBody, ensure_of b.six_le_length_encode, ok_bind, b.parseIinfCount_encode,
    show 4 + b.countSize = b.entriesStart from rfl, hscan, ensure_of hcount, b.headD_encode]
  rfl

end IinfBody

variable {body : List UInt8} {layout : IinfLayout}

theorem exists_of_parseIinfBody (h : parseIinfBody body = .ok layout) :
    ∃ b : IinfBody, b.encode = body := by
  simp only [parseIinfBody, bind_eq_ok, ensure_eq_ok] at h
  obtain ⟨-, hsix, ⟨countPos, countSize, count⟩, hcount, entries, hscan, -, hn, -⟩ := h
  have htake : (body.take 4).length = 4 := by rw [List.length_take]; omega
  have hhead : (body.take 4).headD 0 = body.headD 0 := by
    obtain ⟨c, cs, rfl⟩ := List.exists_cons_of_length_pos (show 0 < body.length by omega)
    rfl
  obtain ⟨rfl, hversion, hlt, hdrop⟩ : countPos = 4 ∧
      (body.headD 0 = 0 ∧ countSize = 2 ∨ body.headD 0 = 1 ∧ countSize = 4) ∧
      count < 256 ^ countSize ∧
      body.drop 4 = toBe countSize count ++ body.drop (4 + countSize) := by
    unfold parseIinfCount at hcount
    split at hcount
    · next hzero =>
        obtain ⟨rfl, rfl, rfl⟩ := hcount
        exact ⟨rfl, .inl ⟨hzero, rfl⟩, @beNat_slice_lt _ 4 2 hsix,
          @drop_of_slice _ 4 2 hsix⟩
    · next hone =>
        simp only [bind_eq_ok, ensure_eq_ok, pure_eq_ok, Prod.mk.injEq] at hcount
        obtain ⟨-, height, rfl, rfl, rfl⟩ := hcount
        exact ⟨rfl, .inr ⟨hone, rfl⟩, @beNat_slice_lt _ 4 4 height,
          @drop_of_slice _ 4 4 height⟩
    · cases hcount
  obtain ⟨atoms, hatoms, rfl⟩ := exists_atoms_of_scanRawBoxes hscan
  obtain rfl : atoms.length = count := (IinfBody.length_rawBoxes _ _).symm.trans hn
  refine ⟨⟨body.take 4, countSize, atoms, htake, by rwa [hhead], hlt⟩, ?_⟩
  have htail := drop_of_slice?_eq_some hatoms
  rw [List.drop_length, List.append_nil] at htail
  show body.take 4 ++ (toBe countSize atoms.length ++ encodeAll atoms) = body
  rw [← htail, ← hdrop, List.take_append_drop]

/-- The bodies of the entries of an `iinf` body, in order. -/
def infeBodies (body : List UInt8) : Except HeifError (List (List UInt8)) := do
  let (countPos, countSize, _) ← parseIinfCount body
  let entries ← scanRawBoxes body (countPos + countSize) body.length
  pure (entries.map (bodyOf body))

theorem map_bodyOf {boxes : List RawBox} (h : List.Forall₂ (Holds bytes) boxes atoms) :
    boxes.map (bodyOf bytes) = atoms.map (·.body) := by
  induction h with
  | nil => rfl
  | cons hfirst _ ih => rw [List.map_cons, List.map_cons, ih, hfirst.body]

/-- A round of the loop over the entries is the same for a box that holds the same. -/
theorem add_congr {bytes bytes' : List UInt8} {box box' : RawBox} {a : Atom}
    (h : Holds bytes box a) (h' : Holds bytes' box' a) (s : IinfLayout) :
    IinfLayout.add bytes s box = IinfLayout.add bytes' s box' := by
  unfold IinfLayout.add
  simp only [h.kind, h'.kind, h.body, h'.body]

theorem foldlM_add_congr {bytes bytes' : List UInt8} {boxes boxes' : List RawBox}
    (h : List.Forall₂ (Holds bytes) boxes atoms) (h' : List.Forall₂ (Holds bytes') boxes' atoms)
    (s : IinfLayout) :
    boxes.foldlM (IinfLayout.add bytes) s = boxes'.foldlM (IinfLayout.add bytes') s := by
  induction h generalizing boxes' s with
  | nil =>
      cases h'
      rfl
  | cons hfirst _ ih =>
      cases h' with
      | cons hfirst' hrest' =>
          rw [List.foldlM_cons, List.foldlM_cons, add_congr hfirst hfirst']
          exact congrArg _ (funext fun s' => ih hrest' s')

theorem readCString_append {body value rest : List UInt8} {cursor : Nat}
    (h : body.drop cursor = value ++ 0 :: rest) (hzero : ∀ b ∈ value, b ≠ 0)
    (hutf8 : ByteArray.validateUTF8 ⟨value.toArray⟩ = true) :
    readCString body cursor = .ok (value, cursor + value.length + 1) := by
  have hlen := congrArg List.length h
  rw [List.length_drop, List.length_append, List.length_cons] at hlen
  have hslice : slice? body cursor body.length = some (value ++ 0 :: rest) := by
    rw [slice?_of_le (by omega) (Nat.le_refl _), slice, ← List.length_drop, List.take_length, h]
  have hfind : (value ++ 0 :: rest).findIdx? (· = 0) = some value.length := by
    rw [List.findIdx?_append, List.findIdx?_eq_none_iff.mpr (by simpa using hzero),
      List.findIdx?_cons]
    simp
  simp only [readCString, hslice, require_some, ok_bind, hfind, List.take_left,
    ensure_of hutf8]
  rfl

theorem parseInfe_packet {body rest : List UInt8} {itemId typePos : Nat} (hlen : 8 ≤ body.length)
    (hid : parseInfeId body = .ok (itemId, some typePos))
    (h : body.drop typePos = ascii "mime" ++ (ascii "XMP" ++ 0 ::
      (ascii "application/rdf+xml" ++ 0 :: rest))) :
    parseInfe body = .ok ⟨itemId, some (ascii "mime"), some (ascii "application/rdf+xml")⟩ := by
  have htype : slice? body typePos (typePos + 4) = some (ascii "mime") :=
    slice?_of_drop h (by decide) rfl
  have hname : body.drop (typePos + 4) = ascii "XMP" ++ 0 ::
      (ascii "application/rdf+xml" ++ 0 :: rest) := drop_add_of_append h rfl
  have hcontent : body.drop (typePos + 4 + (ascii "XMP").length + 1) =
      ascii "application/rdf+xml" ++ 0 :: rest := by
    rw [← List.drop_drop, drop_add_of_append hname rfl]
    rfl
  simp only [parseInfe, ensure_of hlen, ok_bind, hid, htype, require_some,
    readCString_append hname (by decide +kernel) (by decide +kernel), parseContentType, if_true,
    readCString_append hcontent (by decide +kernel)
      (by decide +kernel)]
  rfl

/-- The size of the entry that a packet is given. -/
def infeSize (itemId : Nat) : Nat := if itemId < 2 ^ 16 then 45 else 47

theorem parseInfe_of_makeInfe {itemId : Nat} (hid : itemId < 2 ^ 32)
    (h : makeInfe itemId = .ok bytes) :
    ∃ a : Atom, bytes = a.encode ∧ a.kind = ascii "infe" ∧ a.size = infeSize itemId ∧
      parseInfe a.body = .ok ⟨itemId, some (ascii "mime"), some (ascii "application/rdf+xml")⟩ := by
  obtain ⟨a, hkind, hwide, hbody, rfl⟩ := exists_of_boxWithBody (by decide) h
  refine ⟨a, rfl, hkind, ?_, ?_⟩
  · rw [Atom.size, Atom.headerSize, hwide, if_neg (by decide), hbody]
    unfold infeSize
    by_cases hsmall : itemId < 2 ^ 16
    · rw [if_pos hsmall, if_pos hsmall]
      simp [ascii]
    · rw [if_neg hsmall, if_neg hsmall]
      simp [ascii]
  rw [hbody]
  split
  · next hsmall =>
      refine @parseInfe_packet _ [0] _ 8 (by simp [ascii]) ?_ ?_
      · have hread := slice_append_mid [2, 0, 0, 0] (toBe 2 itemId)
          (toBe 2 0 ++ (ascii "mime" ++ (ascii "XMP" ++ [0] ++
            (ascii "application/rdf+xml" ++ [0] ++ [0])))) (a := 4) (b := 6) rfl (by simp)
        simp only [← List.append_assoc] at hread ⊢
        show Except.ok (beNat (slice _ 4 6), some 8) = _
        rw [hread, beNat_toBe hsmall]
      · simp only [List.append_assoc]
        rfl
  · next hlarge =>
      refine @parseInfe_packet _ [0] _ 10 (by simp [ascii]) ?_ ?_
      · have hread := slice_append_mid [3, 0, 0, 0] (toBe 4 itemId)
          (toBe 2 0 ++ (ascii "mime" ++ (ascii "XMP" ++ [0] ++
            (ascii "application/rdf+xml" ++ [0] ++ [0])))) (a := 4) (b := 8) rfl (by simp)
        simp only [← List.append_assoc] at hread ⊢
        show (ensure _ _ >>= fun _ => Except.ok (beNat (slice _ 4 8), some 10)) = _
        rw [hread, beNat_toBe hid, ensure_of (by simp [ascii])]
        rfl
      · simp only [List.append_assoc]
        rfl

/-- The items with one more, which is a packet. -/
def IinfLayout.withXmp (layout : IinfLayout) (itemId : Nat) : IinfLayout :=
  { layout with
    maxItemId := max layout.maxItemId itemId
    xmpItemIds := layout.xmpItemIds ++ [itemId]
    itemIds := layout.itemIds ++ [itemId] }

theorem add_packet {box : RawBox} {a : Atom} {itemId : Nat} (hbox : Holds bytes box a)
    (hkind : a.kind = ascii "infe")
    (h : parseInfe a.body = .ok ⟨itemId, some (ascii "mime"), some (ascii "application/rdf+xml")⟩)
    (hfresh : itemId ∉ layout.itemIds) :
    IinfLayout.add bytes layout box = .ok (layout.withXmp itemId) := by
  have hxmp : Infe.isXmp ⟨itemId, some (ascii "mime"), some (ascii "application/rdf+xml")⟩ = true :=
    by simp [Infe.isXmp]
  have hexif : Infe.isExif ⟨itemId, some (ascii "mime"), some (ascii "application/rdf+xml")⟩ =
      false := by
    show decide (some (ascii "mime") = some (ascii "Exif")) = false
    decide
  have htone : Infe.isToneMap ⟨itemId, some (ascii "mime"), some (ascii "application/rdf+xml")⟩ =
      false := by
    show decide (some (ascii "mime") = some (ascii "tmap")) = false
    decide
  unfold IinfLayout.add
  rw [hbox.kind, hbox.body, h, ensure_of hkind, ok_bind, ok_bind]
  simp only [ensure_of hfresh, ok_bind, hxmp, hexif, htone]
  rfl

theorem count_of_foldlM_add {entries : List RawBox} {s s' : IinfLayout}
    (h : entries.foldlM (IinfLayout.add body) s = .ok s') :
    s'.countPos = s.countPos ∧ s'.countSize = s.countSize := by
  refine foldlM_preserves
    (P := fun layout => layout.countPos = s.countPos ∧ layout.countSize = s.countSize) ?_ _ _ _ h
    ⟨rfl, rfl⟩
  intro s entry s' hstep hs
  simp only [IinfLayout.add, bind_eq_ok, pure_eq_ok] at hstep
  obtain ⟨-, -, infe, -, -, -, rfl⟩ := hstep
  exact hs

/-- After an entry is appended, what is read is what was read and the new item. -/
theorem appendIinfEntry_eq_ok {bytes newIinf : List UInt8} {iinf : RawBox} {itemId : Nat}
    (hparse : parseIinf bytes iinf = .ok layout) (hlen : (bodyOf bytes iinf).length < 2 ^ 64)
    (hid : itemId < 2 ^ 32) (hfresh : itemId ∉ layout.itemIds)
    (h : appendIinfEntry bytes iinf layout.countPos layout.countSize itemId = .ok newIinf) :
    ∃ (body' entry : List UInt8) (bodies : List (List UInt8)),
      boxWithBody iinf.kind body' = .ok newIinf ∧
      body'.length = (bodyOf bytes iinf).length + infeSize itemId ∧
      parseIinfBody body' = .ok (layout.withXmp itemId) ∧
      infeBodies (bodyOf bytes iinf) = .ok bodies ∧ infeBodies body' = .ok (bodies ++ [entry]) ∧
      parseInfe entry =
        .ok ⟨itemId, some (ascii "mime"), some (ascii "application/rdf+xml")⟩ := by
  unfold parseIinf at hparse
  unfold appendIinfEntry at h
  generalize bodyOf bytes iinf = body at *
  obtain ⟨b, rfl⟩ := exists_of_parseIinfBody hparse
  rw [b.parseIinfBody_encode hlen] at hparse
  obtain ⟨hpos, hsize⟩ := count_of_foldlM_add hparse
  simp only [bind_eq_ok, hpos, hsize] at h
  obtain ⟨entryBytes, hentry, newBody, hnew, hbox⟩ := h
  obtain ⟨a, rfl, hkind, hasize, hinfe⟩ := parseInfe_of_makeInfe hid hentry
  have hwidth : FieldWidth b.countSize := by
    rcases b.countSize_eq with ⟨-, hcount⟩ | ⟨-, hcount⟩ <;> simp [FieldWidth, hcount]
  rw [show b.empty.countPos = b.head.length from b.length_head.symm] at hnew
  obtain ⟨rfl, hlt⟩ := countOneMore_toBe hwidth b.count_lt hlen hnew
  let b' : IinfBody := ⟨b.head, b.countSize, b.entries ++ [a], b.length_head, b.countSize_eq, by
    simpa using hlt⟩
  have hbody : b.head ++ (toBe b.countSize (b.entries.length + 1) ++ encodeAll b.entries) ++
      a.encode = b'.encode := by
    simp [IinfBody.encode, b']
  rw [hbody] at hbox
  have hshort : b'.encode.length < 2 ^ 64 := by
    simp only [boxWithBody, bind_eq_ok, require_eq_ok, checkedAdd_eq_some] at hbox
    obtain ⟨_, ⟨hshort, -⟩, -⟩ := hbox
    omega
  have hboxes : rawBoxes b'.entriesStart b'.entries = rawBoxes b'.entriesStart b.entries ++
      [a.rawBox (b'.entriesStart + (encodeAll b.entries).length)] := rawBoxes_append _ _ _
  have hdrop : b'.encode.drop b'.entriesStart = encodeAll b.entries ++ a.encode := by
    rw [b'.drop_entriesStart]
    simp [b']
  have hlast : Holds b'.encode (a.rawBox (b'.entriesStart + (encodeAll b.entries).length)) a := by
    refine ⟨rfl, ?_⟩
    have hrest := drop_add_of_append (hdrop.trans (by rw [← List.append_nil a.encode])) rfl
    rw [Atom.rawBox_stop, Atom.rawBox_start, hrest,
      drop_add_of_append hrest a.length_encode]
  refine ⟨b'.encode, a.body, b.entries.map (·.body), hbox, ?_, ?_, ?_, ?_, hinfe⟩
  · rw [← hbody, List.length_append, a.length_encode, hasize, IinfBody.encode]
    simp only [List.length_append, length_toBe]
  · rw [b'.parseIinfBody_encode hshort, hboxes, List.foldlM_append,
      foldlM_add_congr (holds_rawBoxes hdrop) b.holds_entries b'.empty,
      show b'.empty = b.empty from rfl, hparse]
    show (IinfLayout.add _ _ _ >>= pure) = _
    rw [add_packet hlast hkind hinfe hfresh]
    rfl
  · simp only [infeBodies, b.parseIinfCount_encode, ok_bind]
    rw [show 4 + b.countSize = b.entriesStart from rfl, b.scan_entries hlen, ok_bind,
      map_bodyOf b.holds_entries]
    rfl
  · simp only [infeBodies, b'.parseIinfCount_encode, ok_bind]
    rw [show 4 + b'.countSize = b'.entriesStart from rfl, b'.scan_entries hshort, ok_bind,
      map_bodyOf b'.holds_entries]
    simp [b', pure, Except.pure]

/-! ## references -/

/-- The references in a body that is a version and boxes are those in the boxes. -/
theorem referencePairsBody_encode {head : List UInt8} {children : List Atom}
    (hhead : head.length = 4) (hlen : (head ++ encodeAll children).length < 2 ^ 64)
    (referenceType : List UInt8) :
    referencePairsBody (head ++ encodeAll children) referenceType =
      (children.filter (fun a => a.kind = referenceType)).mapM
        (fun a => parseReference (head.headD 0) a.body) := by
  have hdrop : (head ++ encodeAll children).drop 4 = encodeAll children := List.drop_left' hhead
  have hfour : 4 ≤ (head ++ encodeAll children).length := by
    rw [List.length_append]
    omega
  have hscan : scanRawBoxes (head ++ encodeAll children) 4 (head ++ encodeAll children).length =
      .ok (rawBoxes 4 children) :=
    scanRawBoxes_encodeAll (slice?_eq_some.mpr ⟨hfour, Nat.le_refl _, by
      rw [slice, ← List.length_drop, List.take_length, hdrop]⟩) hlen
  have hholds : List.Forall₂ (Holds (head ++ encodeAll children)) (rawBoxes 4 children) children :=
    @holds_rawBoxes _ [] _ _ (by rw [hdrop, List.append_nil])
  have hversion : (head ++ encodeAll children).headD 0 = head.headD 0 := by
    obtain ⟨c, cs, rfl⟩ := List.exists_cons_of_length_pos (show 0 < head.length by omega)
    rfl
  simp only [referencePairsBody, ensure_of hfour, ok_bind, hscan, hversion]
  exact mapM_bodyOf _ (filter_holds hholds referenceType)

theorem map_beNat_slice {w start : Nat} {ids : List Nat} (h : ∀ itemId ∈ ids, itemId < 256 ^ w)
    (pre : List UInt8) (hstart : start = pre.length) :
    (List.range ids.length).map (fun index =>
      beNat (slice (pre ++ ids.flatMap (toBe w)) (start + index * w) (start + index * w + w))) =
      ids := by
  induction ids generalizing pre start with
  | nil => rfl
  | cons itemId ids ih =>
      rw [List.forall_mem_cons] at h
      have hfirst := slice_append_mid pre (toBe w itemId) (ids.flatMap (toBe w)) (a := start)
        (b := start + w) hstart (by rw [hstart, length_toBe])
      have hrest := @ih (start + w) h.2 (pre ++ toBe w itemId) (by simp [hstart])
      rw [List.length_cons, List.range_succ_eq_map, List.map_cons, List.map_map,
        List.flatMap_cons, ← List.append_assoc]
      congr 1
      · rw [Nat.zero_mul, Nat.add_zero, hfirst, beNat_toBe h.1]
      · refine Eq.trans (List.map_congr_left fun index _ => ?_) hrest
        have hpos : start + index.succ * w = start + w + index * w := by
          rw [Nat.succ_mul]
          omega
        simp only [Function.comp, hpos]

theorem length_flatMap_toBe (w : Nat) (ids : List Nat) :
    (ids.flatMap (toBe w)).length = ids.length * w := by
  simp [List.length_flatMap]

variable {version : UInt8} {toItemIds : List Nat}

theorem parseReference_encode {w fromItemId : Nat} (hw : irefIdWidth version = .ok w)
    (hfrom : fromItemId < 256 ^ w) (hto : ∀ itemId ∈ toItemIds, itemId < 256 ^ w)
    (hcount : toItemIds.length < 2 ^ 16) :
    parseReference version
      (toBe w fromItemId ++ toBe 2 toItemIds.length ++ toItemIds.flatMap (toBe w)) =
      .ok (fromItemId, toItemIds) := by
  have hflat := length_flatMap_toBe w toItemIds
  have hlen : (toBe w fromItemId ++ toBe 2 toItemIds.length ++
      toItemIds.flatMap (toBe w)).length = w + 2 + toItemIds.length * w := by
    rw [List.length_append, List.length_append, length_toBe, length_toBe, hflat]
  have hsource := slice_append_mid [] (toBe w fromItemId)
    (toBe 2 toItemIds.length ++ toItemIds.flatMap (toBe w)) (a := 0) (b := w) rfl (by simp)
  have hnumber := slice_append_mid (toBe w fromItemId) (toBe 2 toItemIds.length)
    (toItemIds.flatMap (toBe w)) (a := w) (b := w + 2) (by simp) (by simp)
  have htargets := @map_beNat_slice _ (w + 2) _ hto (toBe w fromItemId ++ toBe 2 toItemIds.length)
    (by simp)
  rw [List.nil_append, ← List.append_assoc] at hsource
  simp only [parseReference, hw, ok_bind, hlen, hsource, hnumber, beNat_toBe hfrom,
    beNat_toBe (w := 2) hcount, ensure_of (Nat.le_add_right _ _), ensure_true, htargets]
  rfl

theorem parseReference_of_cdscBody {fromItemId : Nat} (hfrom : fromItemId < 2 ^ 32)
    (hto : ∀ itemId ∈ toItemIds, itemId < 2 ^ 32)
    (h : cdscBody version fromItemId toItemIds = .ok body) :
    parseReference version body = .ok (fromItemId, toItemIds) := by
  simp only [cdscBody, bind_eq_ok, ensure_eq_ok] at h
  obtain ⟨-, hcount, -, -, h⟩ := h
  split at h
  · simp only [bind_eq_ok, ensure_eq_ok, pure_eq_ok] at h
    obtain ⟨-, hfrom', -, hto', rfl⟩ := h
    exact parseReference_encode rfl hfrom' hto' hcount
  · rw [pure_eq_ok] at h
    subst h
    exact parseReference_encode rfl hfrom hto hcount
  · cases h

/-- The size of a reference box. -/
def referenceSize (idWidth count : Nat) : Nat := 8 + (idWidth + 2 + count * idWidth)

theorem length_cdscBody {fromItemId : Nat} (h : cdscBody version fromItemId toItemIds = .ok body) :
    body.length + 8 = referenceSize (if version = 0 then 2 else 4) toItemIds.length := by
  simp only [cdscBody, bind_eq_ok, ensure_eq_ok] at h
  obtain ⟨-, -, -, -, h⟩ := h
  split at h
  · simp only [bind_eq_ok, ensure_eq_ok, pure_eq_ok] at h
    obtain ⟨-, -, -, -, rfl⟩ := h
    simp only [List.length_append, length_toBe, length_flatMap_toBe, if_true, referenceSize]
    omega
  · rw [pure_eq_ok] at h
    subst h
    have hne : ¬ (1 : UInt8) = 0 := by decide
    simp only [List.length_append, length_toBe, length_flatMap_toBe, hne, if_false, referenceSize]
    omega
  · cases h

/-- The width of the ids in the reference that a packet is given. -/
def newReferenceWidth (bytes : List UInt8) (iref : Option RawBox) (newItemId : Nat)
    (describedItemIds : List Nat) : Nat :=
  match iref with
  | some iref => if (bodyOf bytes iref).headD 0 = 0 then 2 else 4
  | none => if newItemId < 2 ^ 16 ∧ ∀ itemId ∈ describedItemIds, itemId < 2 ^ 16 then 2 else 4

/-- The length of the body of an `iref` box, which is the version where there is none. -/
def irefLength (bytes : List UInt8) (iref : Option RawBox) : Nat :=
  (iref.map fun iref => (bodyOf bytes iref).length).getD 4

/-- What is read of a file's references, which may have none. -/
def referencePairs (bytes : List UInt8) (iref : Option RawBox) (referenceType : List UInt8) :
    Except HeifError (List (Nat × List Nat)) :=
  match iref with
  | none => pure []
  | some iref => itemReferencePairs bytes iref referenceType

/-- The references that a new packet adds. -/
def addedPairs (newItemId : Nat) (describedItemIds : List Nat) (referenceType : List UInt8) :
    List (Nat × List Nat) :=
  if referenceType = ascii "cdsc" then [(newItemId, describedItemIds)] else []

theorem mapM_added {newItemId : Nat} {describedItemIds : List Nat} {a : Atom}
    (hkind : a.kind = ascii "cdsc")
    (h : parseReference version a.body = .ok (newItemId, describedItemIds))
    (referenceType : List UInt8) :
    ([a].filter (fun a => a.kind = referenceType)).mapM (fun a => parseReference version a.body) =
      .ok (addedPairs newItemId describedItemIds referenceType) := by
  unfold addedPairs
  rw [List.filter_cons, hkind]
  by_cases hcdsc : referenceType = ascii "cdsc"
  · rw [if_pos (decide_eq_true hcdsc.symm), if_pos hcdsc, List.filter_nil, List.mapM_cons, h]
    rfl
  · rw [if_neg (by simpa using Ne.symm hcdsc), if_neg hcdsc]
    rfl

/-- After a reference is appended, what is read is what was read and the new one. -/
theorem describeInIref_eq_ok {bytes newIref : List UInt8} {iref : Option RawBox} {newItemId : Nat}
    {describedItemIds knownItemIds : List Nat} (hkind : ∀ box ∈ iref, box.kind = ascii "iref")
    (hlen : ∀ box ∈ iref, (bodyOf bytes box).length < 2 ^ 64) (hid : newItemId < 2 ^ 32)
    (hdescribed : ∀ itemId ∈ describedItemIds, itemId < 2 ^ 32)
    (h : describeInIref bytes iref newItemId describedItemIds knownItemIds = .ok newIref) :
    ∃ body', boxWithBody (ascii "iref") body' = .ok newIref ∧
      body'.length = irefLength bytes iref + referenceSize
        (newReferenceWidth bytes iref newItemId describedItemIds) describedItemIds.length ∧
      ∀ referenceType, ∃ pairs, referencePairs bytes iref referenceType = .ok pairs ∧
        referencePairsBody body' referenceType =
          .ok (pairs ++ addedPairs newItemId describedItemIds referenceType) := by
  have hshort {body' : List UInt8} (hbox : boxWithBody (ascii "iref") body' = .ok newIref) :
      body'.length < 2 ^ 64 := by
    simp only [boxWithBody, bind_eq_ok, require_eq_ok, checkedAdd_eq_some] at hbox
    obtain ⟨_, ⟨hshort, -⟩, -⟩ := hbox
    omega
  cases iref with
  | none =>
      simp only [describeInIref, synthesiseCdscIref, bind_eq_ok] at h
      obtain ⟨reference, hreference, child, hchild, hbox⟩ := h
      obtain ⟨a, ha, hwide, hbody, rfl⟩ := exists_of_boxWithBody (by decide) hchild
      have hparse := parseReference_of_cdscBody hid hdescribed hreference
      have hcount := length_cdscBody hreference
      have hwidth : (if (if newItemId < 2 ^ 16 ∧ ∀ itemId ∈ describedItemIds, itemId < 2 ^ 16 then 0
          else 1 : UInt8) = 0 then 2 else 4) =
          newReferenceWidth bytes none newItemId describedItemIds := by
        unfold newReferenceWidth
        split <;> rfl
      rw [hwidth] at hcount
      rw [← hbody] at hparse hcount
      generalize (if newItemId < 2 ^ 16 ∧ ∀ itemId ∈ describedItemIds, itemId < 2 ^ 16 then 0
        else 1 : UInt8) = version at *
      rw [show a.encode = encodeAll [a] from (List.append_nil _).symm] at hbox
      have hsize : a.size = a.body.length + 8 := by
        rw [Atom.size, Atom.headerSize, hwide]
        exact Nat.add_comm _ _
      refine ⟨_, hbox, ?_, fun referenceType => ⟨[], rfl, ?_⟩⟩
      · rw [← hcount, ← hsize]
        simp only [irefLength, Option.map_none, Option.getD_none, List.length_append,
          List.length_cons, List.length_nil, encodeAll_cons, encodeAll_nil, List.append_nil,
          a.length_encode]
      rw [List.nil_append, ← mapM_added ha hparse referenceType]
      exact referencePairsBody_encode rfl (hshort hbox) referenceType
  | some box =>
      simp only [describeInIref] at h
      have hpairs := fun referenceType => references_known h referenceType
      simp only [appendCdscReference, bind_eq_ok, ensure_eq_ok] at h
      obtain ⟨-, hfour, children, hscan, -, -, reference, hreference, child, hchild, hbox⟩ := h
      obtain ⟨a, ha, hwide, hbody, rfl⟩ := exists_of_boxWithBody (by decide) hchild
      have hparse := parseReference_of_cdscBody hid hdescribed hreference
      have hcount := length_cdscBody hreference
      rw [← hbody] at hparse hcount
      rw [hkind box rfl] at hbox
      have hsize : a.size = a.body.length + 8 := by
        rw [Atom.size, Atom.headerSize, hwide]
        exact Nat.add_comm _ _
      refine ⟨_, hbox, by
        rw [List.length_append, a.length_encode, hsize, hcount]
        rfl, fun referenceType => ?_⟩
      obtain ⟨pairs, hpairs, -⟩ := hpairs referenceType
      refine ⟨pairs, hpairs, ?_⟩
      obtain ⟨atoms, hatoms, -⟩ := exists_atoms_of_scanRawBoxes hscan
      have hsplit : bodyOf bytes box = (bodyOf bytes box).take 4 ++ encodeAll atoms := by
        have hdrop := drop_of_slice?_eq_some hatoms
        rw [List.drop_length, List.append_nil] at hdrop
        rw [← hdrop, List.take_append_drop]
      have htake : ((bodyOf bytes box).take 4).length = 4 := by rw [List.length_take]; omega
      have hheadD : (bodyOf bytes box).headD 0 = ((bodyOf bytes box).take 4).headD 0 := by
        obtain ⟨c, cs, hcons⟩ := List.exists_cons_of_length_pos
          (show 0 < (bodyOf bytes box).length by omega)
        rw [hcons]
        rfl
      have hlen' := hlen box rfl
      have hbox' := hshort hbox
      rw [hheadD] at hparse
      rw [itemReferencePairs] at hpairs
      generalize (bodyOf bytes box).take 4 = head at *
      rw [hsplit] at hpairs hlen' hbox' ⊢
      rw [referencePairsBody_encode htake hlen'] at hpairs
      have hatoms' : head ++ encodeAll atoms ++ a.encode = head ++ encodeAll (atoms ++ [a]) := by
        simp
      rw [hatoms'] at hbox' ⊢
      rw [referencePairsBody_encode htake hbox', List.filter_append, List.mapM_append, hpairs,
        mapM_added ha hparse]
      rfl

/-! ## the ids in the tables -/

/-- The ids of a layout are small, and those of a kind are among all. -/
structure IinfLayout.Bounded (layout : IinfLayout) : Prop where
  small : ∀ itemId ∈ layout.itemIds, itemId < 2 ^ 32
  xmp : ∀ itemId ∈ layout.xmpItemIds, itemId ∈ layout.itemIds
  toneMap : ∀ itemId ∈ layout.toneMapItemIds, itemId ∈ layout.itemIds

theorem beNat_slice_lt_of_le (body : List UInt8) {start stop : Nat} (h : stop - start ≤ 4) :
    beNat (slice body start stop) < 2 ^ 32 := by
  have hlt := beNat_lt (slice body start stop)
  have hlen : (slice body start stop).length ≤ 4 := by
    unfold slice
    rw [List.length_take]
    omega
  exact Nat.lt_of_lt_of_le hlt (Nat.pow_le_pow_right (by decide) hlen)

theorem itemId_lt_of_parseInfe {infe : Infe} (h : parseInfe body = .ok infe) :
    infe.itemId < 2 ^ 32 := by
  simp only [parseInfe, bind_eq_ok] at h
  obtain ⟨-, -, ⟨itemId, typePos⟩, hid, h⟩ := h
  have hlt : itemId < 2 ^ 32 := by
    unfold parseInfeId at hid
    split at hid
    · simp only [pure_eq_ok, Prod.mk.injEq] at hid
      rw [← hid.1]
      exact beNat_slice_lt_of_le _ (by decide)
    · cases hid
    · simp only [pure_eq_ok, Prod.mk.injEq] at hid
      rw [← hid.1]
      exact beNat_slice_lt_of_le _ (by decide)
    · simp only [bind_eq_ok, pure_eq_ok, Prod.mk.injEq] at hid
      obtain ⟨-, -, rfl, -⟩ := hid
      exact beNat_slice_lt_of_le _ (by decide)
    · cases hid
  cases typePos with
  | none =>
      rw [pure_eq_ok] at h
      rw [← h]
      exact hlt
  | some typePos =>
      simp only [bind_eq_ok, pure_eq_ok] at h
      obtain ⟨-, -, -, -, -, -, rfl⟩ := h
      exact hlt

theorem bounded_of_parseIinf {iinf : RawBox} (h : parseIinf bytes iinf = .ok layout) :
    layout.Bounded := by
  simp only [parseIinf, parseIinfBody, bind_eq_ok] at h
  obtain ⟨-, -, ⟨countPos, countSize, count⟩, -, entries, -, -, -, hfold⟩ := h
  refine foldlM_preserves (P := IinfLayout.Bounded) ?_ _ _ _ hfold ⟨by simp, by simp, by simp⟩
  intro s entry s' hstep hs
  simp only [IinfLayout.add, bind_eq_ok, pure_eq_ok] at hstep
  obtain ⟨-, -, infe, hinfe, -, -, rfl⟩ := hstep
  have hadd (itemIds : List Nat) (p : Bool) (h : ∀ itemId ∈ itemIds, itemId ∈ s.itemIds) :
      ∀ itemId ∈ (if p then itemIds ++ [infe.itemId] else itemIds),
        itemId ∈ s.itemIds ++ [infe.itemId] := by
    intro itemId hmem
    split at hmem
    · rcases List.mem_append.mp hmem with hmem | hmem
      · exact List.mem_append_left _ (h _ hmem)
      · exact List.mem_append_right _ hmem
    · exact List.mem_append_left _ (h _ hmem)
  constructor
  case small =>
    rw [List.forall_mem_append, List.forall_mem_singleton]
    exact ⟨hs.small, itemId_lt_of_parseInfe hinfe⟩
  case xmp => exact hadd _ _ hs.xmp
  case toneMap => exact hadd _ _ hs.toneMap

/-- A packet describes the primary image, and the tone-mapped image if there is one. -/
theorem mem_of_insertionDescribedItemIds {iref : Option RawBox} {primaryItemId : Nat}
    {iinf : IinfLayout} {itemIds : List Nat}
    (h : insertionDescribedItemIds bytes iref primaryItemId iinf = .ok itemIds) :
    primaryItemId ∈ itemIds ∧
      ∀ itemId ∈ itemIds, itemId = primaryItemId ∨ itemId ∈ iinf.toneMapItemIds := by
  unfold insertionDescribedItemIds at h
  split at h
  · rw [pure_eq_ok] at h
    rw [← h]
    exact ⟨List.mem_cons_self, fun itemId hmem => .inl (List.mem_singleton.mp hmem)⟩
  · next toneMapItemId htone =>
      simp only [bind_eq_ok, pure_eq_ok] at h
      obtain ⟨-, -, -, -, -, -, -, -, -, -, rfl⟩ := h
      refine ⟨List.mem_cons_self, fun itemId hmem => ?_⟩
      rw [htone]
      simpa using hmem
  · cases h

theorem ReadAs.primaryItemId_lt {layout : MetaLayout} {f : MetaFile} (h : ReadAs bytes layout f) :
    layout.primaryItemId < 2 ^ 32 := by
  obtain ⟨pitm, -, hprimary⟩ := h.pitm
  simp only [parsePrimaryItemId, bind_eq_ok] at hprimary
  obtain ⟨-, -, hprimary⟩ := hprimary
  split at hprimary
  · rw [pure_eq_ok] at hprimary
    rw [← hprimary]
    exact beNat_slice_lt_of_le _ (by decide)
  · simp only [bind_eq_ok, require_eq_ok, slice?_eq_some, pure_eq_ok] at hprimary
    obtain ⟨_, ⟨-, -, rfl⟩, hprimary⟩ := hprimary
    rw [← hprimary]
    exact beNat_slice_lt_of_le _ (by decide)
  · cases hprimary

end Kei.Heif
