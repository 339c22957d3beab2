import Kei.Heif.Items

/-!
# Kei.Heif.Rewrite

Writing an XMP packet into a HEIF file.

A packet that is there is replaced where it is if the new one fits, and its
`iloc` entry is pointed at an appended `mdat` box if not.  A file without one
gets a new item, which grows the `meta` box and moves what is behind it.
-/

namespace Kei.Heif

open Bytes Fallible

/-! ## the packet of a file -/

structure XmpLocation where
  itemId : Nat
  extentStart : Nat
  extentLength : Nat
  deriving DecidableEq

/-- What `locate_xmp` returns. -/
structure LocatedXmp where
  existing : Option XmpLocation
  xmpItemId : Option Nat
  maxItemId : Nat
  iinf : IinfLayout
  deriving DecidableEq

/-- The id that an inserted item is given. -/
def LocatedXmp.newItemId (located : LocatedXmp) : Nat := located.maxItemId + 1

/-- The place of the first extent of an item, if its bytes are in the file. -/
def locateItem (bytes : List UInt8) (items : List IlocItem) (itemId : Nat) :
    Option XmpLocation := do
  let item ← items.find? (fun item => item.itemId = itemId)
  let extent ← item.extents.head?
  let start ← checkedAdd item.baseOffset extent.offset
  let stop ← checkedAdd start extent.length
  if item.constructionMethod = 0 ∧ stop ≤ bytes.length then
    some ⟨itemId, start, extent.length⟩
  else none

def locateXmp (bytes : List UInt8) (iinf iloc : RawBox) (iref : Option RawBox)
    (primaryItemId : Nat) : Except HeifError LocatedXmp := do
  let iinfLayout ← parseIinf bytes iinf
  let ilocLayout ← parseIloc bytes iloc
  ensure (∀ item ∈ ilocLayout.items, item.itemId ∈ iinfLayout.itemIds)
    (invalidLayout "iloc contains an item ID absent from iinf")
  let maxItemId := ilocLayout.items.foldl (fun maxItemId item => max maxItemId item.itemId)
    iinfLayout.maxItemId
  let xmpItemId ← selectXmpItemId bytes iref primaryItemId iinfLayout.xmpItemIds
  pure {
    existing := xmpItemId.bind (locateItem bytes ilocLayout.items)
    xmpItemId := xmpItemId
    maxItemId := maxItemId
    iinf := iinfLayout }

/-! ## what a rewrite refuses -/

def ensureInsertionLayout (bytes : List UInt8) : Except HeifError Unit := do
  let top ← scanRawBoxes bytes 0 bytes.length
  ensure (∀ atom ∈ top, atom.kind = ascii "ftyp" ∨ atom.kind = ascii "meta" ∨
      atom.kind = ascii "mdat" ∨ atom.kind = ascii "free" ∨ atom.kind = ascii "wide")
    (invalidLayout "HEIC insertion refuses top-level boxes with unhandled file offsets")

/-- The range of an extent, which both sums must fit. -/
def extentRange (item : IlocItem) (extent : IlocExtent) : Option (Nat × Nat) := do
  let start ← checkedAdd item.baseOffset extent.offset
  let stop ← checkedAdd start extent.length
  pure (start, stop)

def rejectMetaOverlappingItems (layout : IlocLayout) (metaBox : RawBox) :
    Except HeifError Unit :=
  (layout.items.filter (fun item => item.constructionMethod = 0)).forM (fun item =>
    item.extents.forM (fun extent => do
      let start ← require (invalidLayout "HEIC item offset overflows")
        (checkedAdd item.baseOffset extent.offset)
      let stop ← require (invalidLayout "HEIC item extent overflows")
        (checkedAdd start extent.length)
      ensure (¬ (start < metaBox.stop ∧ metaBox.start < stop))
        (invalidLayout "HEIC item data overlaps the meta box and cannot be rewritten")))

/-- Another item has bytes of the extent. -/
def itemExtentIsShared (layout : IlocLayout) (itemId extentStart extentLength : Nat) : Bool :=
  match checkedAdd extentStart extentLength with
  | none => true
  | some extentStop =>
      layout.items.any (fun item =>
        item.itemId ≠ itemId && item.constructionMethod = 0 &&
          item.extents.any (fun extent =>
            match extentRange item extent with
            | none => true
            | some (start, stop) => start < extentStop && extentStart < stop))

def extentIsWithinMdatPayload (bytes : List UInt8) (extentStart extentLength : Nat) :
    Except HeifError Bool := do
  let extentStop ← require (invalidLayout "existing XMP extent overflows")
    (checkedAdd extentStart extentLength)
  let top ← scanRawBoxes bytes 0 bytes.length
  pure ((top.filter (fun atom => atom.kind = ascii "mdat")).any (fun atom =>
    atom.bodyStart ≤ extentStart && extentStop ≤ atom.stop))

/-- The references say that an item is an image with a gain map: they derive it from the
primary image and one other. -/
def toneMapDerivesFromPrimary (iinf : IinfLayout) (primaryItemId toneMapItemId : Nat)
    (inputs : List (List Nat)) : Except HeifError Unit :=
  match inputs with
  | [] => .error (invalidLayout "HEIC tone-mapped image has no derived-image reference")
  | first :: others =>
      match first with
      | [baseItemId, gainMapItemId] =>
          ensure (¬ (others ≠ [] ∨ baseItemId ≠ primaryItemId ∨ primaryItemId = toneMapItemId ∨
              baseItemId = gainMapItemId ∨ gainMapItemId = toneMapItemId ∨
              primaryItemId ∈ iinf.exifItemIds ∨ primaryItemId ∈ iinf.xmpItemIds ∨
              primaryItemId ∈ iinf.toneMapItemIds ∨ gainMapItemId ∈ iinf.exifItemIds ∨
              gainMapItemId ∈ iinf.xmpItemIds ∨ gainMapItemId ∈ iinf.toneMapItemIds ∨
              ∃ itemId ∈ first, itemId ∉ iinf.itemIds))
            (invalidLayout
              "HEIC tone-mapped image is not uniquely derived from the primary image")
      | _ =>
          .error (invalidLayout "HEIC tone-mapped image does not have exactly two inputs")

/-- The Exif item of the primary image describes the tone-mapped image too, and nothing
else. -/
def exifDescribesToneMap (iinf : IinfLayout) (primaryItemId toneMapItemId : Nat)
    (references : List (Nat × List Nat)) : Except HeifError Unit := do
  ensure (¬ ∃ reference ∈ references, reference.1 ∈ iinf.xmpItemIds ∧
      toneMapItemId ∈ reference.2)
    (invalidLayout "HEIC tone-mapped image already has an XMP descriptor")
  ensure (¬ ∃ reference ∈ references, reference.1 ∈ iinf.exifItemIds ∧
      ∃ target ∈ reference.2, target ∉ iinf.itemIds)
    (invalidLayout "Exif item describes an item absent from iinf")
  match references.filter (fun reference =>
      iinf.exifItemIds.contains reference.1 && reference.2.contains primaryItemId) with
  | [] => .error (invalidLayout "HEIC XMP insertion has no primary-image Exif evidence")
  | (sourceItemId, targets) :: others =>
      ensure (¬ (others ≠ [] ∨ targets.length ≠ 2 ∨ primaryItemId ∉ targets ∨
          toneMapItemId ∉ targets ∨
          (references.filter (fun reference => reference.1 = sourceItemId)).length ≠ 1))
        (invalidLayout "HEIC XMP insertion has ambiguous tone-map metadata scope")

def insertionDescribedItemIds (bytes : List UInt8) (iref : Option RawBox) (primaryItemId : Nat)
    (iinf : IinfLayout) : Except HeifError (List Nat) :=
  match iinf.toneMapItemIds with
  | [] => pure [primaryItemId]
  | [toneMapItemId] => do
      let iref ← require (invalidLayout "HEIC XMP insertion cannot prove the tone-mapped image")
        iref
      let derived ← itemReferencePairs bytes iref (ascii "dimg")
      toneMapDerivesFromPrimary iinf primaryItemId toneMapItemId
        ((derived.filter (fun reference => reference.1 = toneMapItemId)).map (·.2))
      let references ← cdscPairs bytes iref
      exifDescribesToneMap iinf primaryItemId toneMapItemId references
      pure [primaryItemId, toneMapItemId]
  | _ => .error (invalidLayout "HEIC XMP insertion has multiple tone-mapped images")

/-! ## new entries of the item tables -/

def makeInfe (itemId : Nat) : Except HeifError (List UInt8) :=
  boxWithBody (ascii "infe")
    ((if itemId < 2 ^ 16 then [2, 0, 0, 0] ++ toBe 2 itemId else [3, 0, 0, 0] ++ toBe 4 itemId) ++
      toBe 2 0 ++ ascii "mime" ++ (ascii "XMP" ++ [0]) ++ (ascii "application/rdf+xml" ++ [0]) ++
      [0])

/-- Add one to the number of entries in a table. -/
def countOneMore (body : List UInt8) (countPos countSize : Nat) (overflows : String) :
    Except HeifError (List UInt8) := do
  let (count, _) ← readUint body countPos countSize
  let newCount ← require (invalidLayout overflows) (checkedAdd count 1)
  writeUint body countPos countSize newCount

def appendIinfEntry (bytes : List UInt8) (iinf : RawBox) (countPos countSize itemId : Nat) :
    Except HeifError (List UInt8) := do
  let body := bodyOf bytes iinf
  let entry ← makeInfe itemId
  let newBody ← countOneMore body countPos countSize "iinf entry count overflows"
  boxWithBody iinf.kind (newBody ++ entry)

def cdscBody (version : UInt8) (fromItemId : Nat) (toItemIds : List Nat) :
    Except HeifError (List UInt8) := do
  ensure (toItemIds.length < 2 ^ 16) (invalidLayout "cdsc names too many images")
  ensure (toItemIds ≠ []) (invalidLayout "cdsc names no image")
  match version with
  | 0 => do
      ensure (fromItemId < 2 ^ 16) (.valueOverflow "16-bit cdsc source item id")
      ensure (∀ toItemId ∈ toItemIds, toItemId < 2 ^ 16)
        (.valueOverflow "16-bit cdsc target item id")
      pure (toBe 2 fromItemId ++ toBe 2 toItemIds.length ++ toItemIds.flatMap (toBe 2))
  | 1 => pure (toBe 4 fromItemId ++ toBe 2 toItemIds.length ++ toItemIds.flatMap (toBe 4))
  | _ => .error (invalidLayout "unsupported iref version")

def appendCdscReference (bytes : List UInt8) (iref : RawBox) (xmpItemId : Nat)
    (describedItemIds knownItemIds : List Nat) : Except HeifError (List UInt8) := do
  let body := bodyOf bytes iref
  ensure (4 ≤ body.length) (invalidLayout "iref box is truncated")
  let version := body.headD 0
  let children ← scanRawBoxes body 4 body.length
  children.forM (fun child => do
    let (fromItemId, toItemIds) ← parseReference version (bodyOf body child)
    ensure (fromItemId ∈ knownItemIds)
      (invalidLayout "iref source item ID is absent from iinf")
    ensure (∀ toItemId ∈ toItemIds, toItemId ∈ knownItemIds)
      (invalidLayout "iref target item ID is absent from iinf"))
  let reference ← cdscBody version xmpItemId describedItemIds
  let child ← boxWithBody (ascii "cdsc") reference
  boxWithBody iref.kind (body ++ child)

def synthesiseCdscIref (xmpItemId : Nat) (describedItemIds : List Nat) :
    Except HeifError (List UInt8) := do
  let version : UInt8 :=
    if xmpItemId < 2 ^ 16 ∧ ∀ itemId ∈ describedItemIds, itemId < 2 ^ 16 then 0 else 1
  let reference ← cdscBody version xmpItemId describedItemIds
  let child ← boxWithBody (ascii "cdsc") reference
  boxWithBody (ascii "iref") ([version, 0, 0, 0] ++ child)

/-- The `iref` box that says what the new item describes. -/
def describeInIref (bytes : List UInt8) (iref : Option RawBox) (newItemId : Nat)
    (describedItemIds knownItemIds : List Nat) : Except HeifError (List UInt8) :=
  match iref with
  | some iref => appendCdscReference bytes iref newItemId describedItemIds knownItemIds
  | none => synthesiseCdscIref newItemId describedItemIds

/-! ## new locations -/

/-- Point the only extent of an item at an offset. -/
def writeOffset (w : IlocWidths) (body : List UInt8) (item : IlocItem) (extent : IlocExtent)
    (newOffset : Nat) : Except HeifError (List UInt8) :=
  match extent.offsetPos, item.baseOffsetPos with
  | some pos, _ => do
      ensure (item.baseOffset ≤ newOffset)
        (invalidLayout "XMP iloc offset is below its base offset")
      writeUint body pos w.offsetSize (newOffset - item.baseOffset)
  | none, some pos => writeUint body pos w.baseOffsetSize newOffset
  | none, none => do
      ensure (newOffset = 0) (invalidLayout "XMP iloc has no writable offset field")
      pure body

def writeLength (w : IlocWidths) (body : List UInt8) (extent : IlocExtent) (newLength : Nat) :
    Except HeifError (List UInt8) :=
  match extent.lengthPos with
  | some pos => writeUint body pos w.lengthSize newLength
  | none => do
      ensure (newLength = 0) (invalidLayout "XMP iloc has no writable length field")
      pure body

/-- The only extent of an item whose bytes are in the file. -/
def onlyExtent (item : IlocItem) : Except HeifError IlocExtent :=
  match item.constructionMethod, item.extents with
  | 0, [extent] => pure extent
  | _, _ => .error (invalidLayout "XMP item uses an unsupported iloc layout")

def rewriteExistingIloc (bytes : List UInt8) (iloc : RawBox) (layout : IlocLayout)
    (itemId newOffset newLength : Nat) : Except HeifError (List UInt8) := do
  let body := bodyOf bytes iloc
  let item ← require (invalidLayout "XMP item has no iloc entry")
    (layout.items.find? (fun item => item.itemId = itemId))
  let extent ← onlyExtent item
  let newBody ← writeOffset layout.toIlocWidths body item extent newOffset
  let newBody ← writeLength layout.toIlocWidths newBody extent newLength
  boxWithBody iloc.kind newBody

/-- The base offset and the extent offset of a position, which goes to whichever field has
bytes for it. -/
def splitDataOffset (w : IlocWidths) (dataOffset : Nat) : Except HeifError (Nat × Nat) :=
  if w.offsetSize ≠ 0 then pure (0, dataOffset)
  else if w.baseOffsetSize ≠ 0 then pure (dataOffset, 0)
  else .error (invalidLayout "XMP iloc cannot represent a file offset")

/-- A field that version 0 has not. -/
def writeVersionedUint (w : IlocWidths) (width value : Nat) : Except HeifError (List UInt8) :=
  if w.version ≠ 0 then writeUintVec width value else pure []

def makeNewIlocEntry (w : IlocWidths) (itemId dataOffset length : Nat) :
    Except HeifError (List UInt8) := do
  let itemId ← writeUintVec w.itemIdSize itemId
  let constructionMethod ← writeVersionedUint w 2 0
  let dataReferenceIndex ← writeUintVec 2 0
  let (baseValue, offsetValue) ← splitDataOffset w dataOffset
  let baseOffset ← writeUintVec w.baseOffsetSize baseValue
  let extentCount ← writeUintVec 2 1
  let index ← writeVersionedUint w w.indexSize 0
  let offset ← writeUintVec w.offsetSize offsetValue
  let length ← writeUintVec w.lengthSize length
  pure (itemId ++ constructionMethod ++ dataReferenceIndex ++ baseOffset ++ extentCount ++ index ++
    offset ++ length)

/-- A sum that does not fit is past every boundary. -/
def extentAtOrPastBoundary (baseOffset extentOffset boundary : Nat) : Bool :=
  match checkedAdd extentOffset baseOffset with
  | some absolute => boundary ≤ absolute
  | none => true

/-- Move the offsets of the extents, which all have bytes for them. -/
def shiftExtents (offsetSize delta : Nat) (body : List UInt8) (extents : List IlocExtent) :
    Except HeifError (List UInt8) :=
  extents.foldlM (fun body extent => do
    let shiftedOffset ← require (invalidLayout "HEIC iloc offset overflows")
      (checkedAdd extent.offset delta)
    match extent.offsetPos with
    | some pos => writeUint body pos offsetSize shiftedOffset
    | none => pure body) body

/-- Move what an item has behind the boundary. -/
def shiftItem (w : IlocWidths) (delta boundary : Nat) (body : List UInt8) (item : IlocItem) :
    Except HeifError (List UInt8) :=
  let isShifted := fun extent : IlocExtent =>
    extentAtOrPastBoundary item.baseOffset extent.offset boundary
  if item.constructionMethod ≠ 0 then pure body
  else if item.extents.any isShifted then
    if item.extents.all isShifted then
      match item.baseOffsetPos with
      | some pos => do
          let shiftedBase ← require (invalidLayout "HEIC iloc base offset overflows")
            (checkedAdd item.baseOffset delta)
          writeUint body pos w.baseOffsetSize shiftedBase
      | none =>
          if item.extents.any (fun extent => extent.offsetPos.isNone) then
            .error (invalidLayout "HEIC iloc offset cannot be shifted safely")
          else shiftExtents w.offsetSize delta body item.extents
    else if item.extents.any (fun extent => extent.offsetPos.isNone) then
      .error (invalidLayout "HEIC iloc extents shift inconsistently")
    else shiftExtents w.offsetSize delta body (item.extents.filter isShifted)
  else pure body

def appendIlocEntry (bytes : List UInt8) (iloc : RawBox) (layout : IlocLayout)
    (itemId dataOffset length delta shiftBoundary : Nat) : Except HeifError (List UInt8) := do
  let body := bodyOf bytes iloc
  let newBody ← layout.items.foldlM (shiftItem layout.toIlocWidths delta shiftBoundary) body
  let newBody ← countOneMore newBody layout.countPos layout.countSize "iloc item count overflows"
  let entry ← makeNewIlocEntry layout.toIlocWidths itemId dataOffset length
  boxWithBody iloc.kind (newBody ++ entry)

/-! ## the rewrite -/

/-- The brands of the HEIF family. -/
def heifBrands : List String :=
  ["heic", "heix", "heim", "heis", "hevc", "hevm", "hevs", "mif1", "msf1", "avif", "avis"]

def isHeifContent (bytes : List UInt8) : Bool :=
  match slice? bytes 4 8, slice? bytes 8 12 with
  | some boxType, some brand =>
      boxType = ascii "ftyp" && heifBrands.any (fun known => brand = ascii known)
  | _, _ => false

def checkedSub (a b : Nat) : Option Nat := if b ≤ a then some (a - b) else none

/-- Replace a packet that is there. -/
def replaceXmp (input xmp : List UInt8) (layout : MetaLayout) (ilocLayout : IlocLayout)
    (location : XmpLocation) : Except HeifError (List UInt8) := do
  let item ← require (invalidLayout "XMP item has no iloc entry")
    (ilocLayout.items.find? (fun item => item.itemId = location.itemId))
  ensure (item.extents.length = 1) (invalidLayout "XMP item uses multiple iloc extents")
  let stop ← require (invalidLayout "existing XMP extent overflows")
    (checkedAdd location.extentStart location.extentLength)
  ensure (stop ≤ input.length) (invalidLayout "existing XMP extent is outside the file")
  let shared := itemExtentIsShared ilocLayout location.itemId location.extentStart
    location.extentLength
  let inMdat ← extentIsWithinMdatPayload input location.extentStart location.extentLength
  if xmp.length ≤ location.extentLength ∧ shared = false ∧ inMdat = true then
    pure (overwrite input location.extentStart
      (xmp ++ List.replicate (location.extentLength - xmp.length) 0x20))
  else do
    let newDataOffset ← require (invalidLayout "new XMP offset overflows")
      (checkedAdd input.length 8)
    let newIloc ← rewriteExistingIloc input layout.iloc ilocLayout location.itemId newDataOffset
      xmp.length
    let appended ← boxWithBody (ascii "mdat") xmp
    pure (input.take layout.iloc.start ++ newIloc ++ input.drop layout.iloc.stop ++ appended)

/-- The size of `meta` with new boxes in place of the old. -/
def newMetaLen (layout : MetaLayout) (newIinf newIref newIloc : List UInt8) : Option Nat := do
  let len ← checkedAdd layout.meta.size newIinf.length
  let len ← checkedSub len layout.iinf.size
  let len ← checkedAdd len newIref.length
  let len ← checkedSub len ((layout.iref.map (·.size)).getD 0)
  let len ← checkedAdd len newIloc.length
  checkedSub len layout.iloc.size

/-- What stands for a box of `meta` in the new one. -/
def newMetaChild (input : List UInt8) (layout : MetaLayout) (newIinf newIref newIloc : List UInt8)
    (child : RawBox) : List UInt8 :=
  if child.start = layout.iinf.start then
    if layout.iref.isNone then newIinf ++ newIref else newIinf
  else if layout.iref.any (fun existing => existing.start = child.start) then newIref
  else if child.start = layout.iloc.start then newIloc
  else slice input child.start child.stop

/-- Insert a packet into a file that has none for its primary image. -/
def insertXmp (input xmp : List UInt8) (layout : MetaLayout) (ilocLayout : IlocLayout)
    (located : LocatedXmp) : Except HeifError (List UInt8) := do
  ensureInsertionLayout input
  let describedItemIds ← insertionDescribedItemIds input layout.iref layout.primaryItemId
    located.iinf
  let newItemId := located.newItemId
  ensure (newItemId < 2 ^ 32) (invalidLayout "no free HEIC item id remains")
  ensure (¬ (located.iinf.version = 0 ∧ 2 ^ 16 ≤ newItemId ∧ ilocLayout.version ≠ 2))
    (invalidLayout "new XMP item id does not fit this HEIC item map")
  let newIinf ← appendIinfEntry input layout.iinf located.iinf.countPos located.iinf.countSize
    newItemId
  let newIref ← describeInIref input layout.iref newItemId describedItemIds located.iinf.itemIds
  let placeholderOffset ← require (invalidLayout "new XMP offset overflows")
    (checkedAdd input.length 8)
  let placeholderIloc ← appendIlocEntry input layout.iloc ilocLayout newItemId placeholderOffset
    xmp.length 0 layout.meta.stop
  let placeholderLen ← require (invalidLayout "new HEIC meta size overflows")
    (newMetaLen layout newIinf newIref placeholderIloc)
  let delta ← require (invalidLayout "new HEIC meta size is invalid")
    (checkedSub placeholderLen layout.meta.size)
  let dataOffset ← require (invalidLayout "new XMP offset overflows") (do
    let len ← checkedAdd input.length delta
    checkedAdd len 8)
  let newIloc ← appendIlocEntry input layout.iloc ilocLayout newItemId dataOffset xmp.length delta
    layout.meta.stop
  let newLen ← require (invalidLayout "new HEIC meta size overflows")
    (newMetaLen layout newIinf newIref newIloc)
  let children ← scanRawBoxes input (layout.meta.bodyStart + layout.prefixSize) layout.meta.stop
  let metaBytes ← patchBoxSize
    (slice input layout.meta.start (layout.meta.bodyStart + layout.prefixSize) ++
      children.flatMap (newMetaChild input layout newIinf newIref newIloc))
  ensure (metaBytes.length = newLen) (invalidLayout "rewritten HEIC meta size is inconsistent")
  let appended ← boxWithBody (ascii "mdat") xmp
  pure (input.take layout.meta.start ++ metaBytes ++ input.drop layout.meta.stop ++ appended)

/-- The extents that a rewrite looks at are in the file. -/
def ensureExtentsResolve (input : List UInt8) (layout : IlocLayout) : Except HeifError Unit :=
  (layout.items.filter (fun item => item.constructionMethod = 0)).forM (fun item => do
    let _ ← resolveItemExtents input item
    pure ())

def rewriteXmp (input xmp : List UInt8) : Except HeifError (List UInt8) := do
  ensure (isHeifContent input = true) (invalidLayout "input is not a HEIF-family file")
  let layout ← findMetaLayout input
  let ilocLayout ← parseIloc input layout.iloc
  let located ← locateXmp input layout.iinf layout.iloc layout.iref layout.primaryItemId
  rejectMetaOverlappingItems ilocLayout layout.meta
  ensureExtentsResolve input ilocLayout
  match located.existing with
  | some location => replaceXmp input xmp layout ilocLayout location
  | none => do
      ensure (located.xmpItemId = none)
        (invalidLayout "existing XMP item uses an unsupported iloc layout")
      insertXmp input xmp layout ilocLayout located

end Kei.Heif
