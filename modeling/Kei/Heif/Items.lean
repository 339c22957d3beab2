import Kei.Heif.Boxes

/-!
# Kei.Heif.Items

The item tables of a HEIF file's `meta` box.

`iinf` names the items, `iloc` says where the bytes of each are, `iref` links
items to each other and `pitm` names the primary image.  The positions of the
fields that are changed later are kept beside their values.
-/

namespace Kei.Heif

open Bytes Fallible

/-! ## item entries -/

structure IinfLayout where
  version : Nat
  countPos : Nat
  countSize : Nat
  maxItemId : Nat
  xmpItemIds : List Nat
  exifItemIds : List Nat
  toneMapItemIds : List Nat
  itemIds : List Nat
  deriving DecidableEq

/-- The string from the cursor to the next zero byte, and the position behind that. -/
def readCString (bytes : List UInt8) (cursor : Nat) : Except HeifError (List UInt8 × Nat) := do
  let rest ← require (invalidLayout "unterminated HEIC item string")
    (slice? bytes cursor bytes.length)
  let stop ← require (invalidLayout "unterminated HEIC item string") (rest.findIdx? (· = 0))
  let value := rest.take stop
  ensure (ByteArray.validateUTF8 ⟨value.toArray⟩ = true)
    (invalidLayout "HEIC item string is not UTF-8")
  pure (value, cursor + stop + 1)

/-- An item entry: its id, and the types of its content. -/
structure Infe where
  itemId : Nat
  itemType : Option (List UInt8)
  contentType : Option (List UInt8)
  deriving DecidableEq

/-- The item id, and where the item type is, if the version has one. -/
def parseInfeId (body : List UInt8) : Except HeifError (Nat × Option Nat) :=
  match body.headD 0 with
  | 0 => pure (beNat (slice body 4 6), none)
  | 1 => .error (invalidLayout "unsupported infe version 1")
  | 2 => pure (beNat (slice body 4 6), some 8)
  | 3 => do
      ensure (14 ≤ body.length) (invalidLayout "infe version 3 box is truncated")
      pure (beNat (slice body 4 8), some 10)
  | _ => .error (invalidLayout "unsupported infe version")

/-- The content type behind the item name, which only a `mime` item has. -/
def parseContentType (body itemType : List UInt8) (cursor : Nat) :
    Except HeifError (Option (List UInt8)) :=
  if itemType = ascii "mime" then do
    let (contentType, _) ← readCString body cursor
    pure (some contentType)
  else if itemType = ascii "uri " then do
    let _ ← readCString body cursor
    pure none
  else pure none

def parseInfe (body : List UInt8) : Except HeifError Infe := do
  ensure (8 ≤ body.length) (invalidLayout "infe box is truncated")
  let (itemId, typePos) ← parseInfeId body
  match typePos with
  | none => pure ⟨itemId, none, none⟩
  | some typePos => do
      let itemType ← require (invalidLayout "infe item type is truncated")
        (slice? body typePos (typePos + 4))
      let (_, cursor) ← readCString body (typePos + 4)
      let contentType ← parseContentType body itemType cursor
      pure ⟨itemId, some itemType, contentType⟩

def Infe.isXmp (entry : Infe) : Bool :=
  entry.itemType = some (ascii "mime") && entry.contentType = some (ascii "application/rdf+xml")

def Infe.isExif (entry : Infe) : Bool := entry.itemType = some (ascii "Exif")

def Infe.isToneMap (entry : Infe) : Bool := entry.itemType = some (ascii "tmap")

/-- A round of the loop over the entries. -/
def IinfLayout.add (body : List UInt8) (layout : IinfLayout) (entry : RawBox) :
    Except HeifError IinfLayout := do
  ensure (entry.kind = ascii "infe") (invalidLayout "iinf contains a non-infe entry")
  let infe ← parseInfe (bodyOf body entry)
  ensure (infe.itemId ∉ layout.itemIds) (invalidLayout "iinf contains duplicate item IDs")
  pure { layout with
    maxItemId := max layout.maxItemId infe.itemId
    xmpItemIds := if infe.isXmp then layout.xmpItemIds ++ [infe.itemId] else layout.xmpItemIds
    exifItemIds := if infe.isExif then layout.exifItemIds ++ [infe.itemId] else layout.exifItemIds
    toneMapItemIds :=
      if infe.isToneMap then layout.toneMapItemIds ++ [infe.itemId] else layout.toneMapItemIds
    itemIds := layout.itemIds ++ [infe.itemId] }

/-- The position, the width and the value of the number of entries. -/
def parseIinfCount (body : List UInt8) : Except HeifError (Nat × Nat × Nat) :=
  match body.headD 0 with
  | 0 => pure (4, 2, beNat (slice body 4 6))
  | 1 => do
      ensure (8 ≤ body.length) (invalidLayout "iinf version 1 box is truncated")
      pure (4, 4, beNat (slice body 4 8))
  | _ => .error (invalidLayout "unsupported iinf version")

def parseIinfBody (body : List UInt8) : Except HeifError IinfLayout := do
  ensure (6 ≤ body.length) (invalidLayout "iinf box is truncated")
  let (countPos, countSize, count) ← parseIinfCount body
  let entries ← scanRawBoxes body (countPos + countSize) body.length
  ensure (entries.length = count) (invalidLayout "iinf entry count does not match its contents")
  entries.foldlM (IinfLayout.add body)
    ⟨(body.headD 0).toNat, countPos, countSize, 0, [], [], [], []⟩

def parseIinf (bytes : List UInt8) (iinf : RawBox) : Except HeifError IinfLayout :=
  parseIinfBody (bodyOf bytes iinf)

/-! ## item locations -/

structure IlocExtent where
  offsetPos : Option Nat
  lengthPos : Option Nat
  offset : Nat
  length : Nat
  deriving DecidableEq

structure IlocItem where
  itemId : Nat
  constructionMethod : Nat
  dataReferenceIndex : Nat
  baseOffsetPos : Option Nat
  baseOffset : Nat
  extents : List IlocExtent
  deriving DecidableEq

/-- The version of an `iloc` box, which fixes the fields of an item, and their widths. -/
structure IlocWidths where
  version : Nat
  offsetSize : Nat
  lengthSize : Nat
  baseOffsetSize : Nat
  indexSize : Nat
  deriving DecidableEq

namespace IlocWidths

def itemIdSize (w : IlocWidths) : Nat := if w.version = 2 then 4 else 2

/-- The least number of bytes of an item. -/
def minItemBytes (w : IlocWidths) : Nat :=
  w.itemIdSize + (if w.version = 0 then 0 else 2) + 2 + w.baseOffsetSize + 2

/-- The number of bytes of an extent. -/
def minExtentBytes (w : IlocWidths) : Nat := w.indexSize + w.offsetSize + w.lengthSize

end IlocWidths

structure IlocLayout extends IlocWidths where
  countPos : Nat
  countSize : Nat
  items : List IlocItem
  deriving DecidableEq

/-- Where a field is, if it has bytes. -/
def fieldPos (width cursor : Nat) : Option Nat := if width = 0 then none else some cursor

/-- The position behind the index of an extent. -/
def skipIlocIndex (w : IlocWidths) (body : List UInt8) (cursor : Nat) : Except HeifError Nat :=
  if w.version ≠ 0 then do
    let (_, cursor) ← readUint body cursor w.indexSize
    pure cursor
  else pure cursor

def parseIlocExtent (w : IlocWidths) (body : List UInt8) (cursor : Nat) :
    Except HeifError (IlocExtent × Nat) := do
  let cursor ← skipIlocIndex w body cursor
  let offsetPos := fieldPos w.offsetSize cursor
  let (offset, cursor) ← readUint body cursor w.offsetSize
  let lengthPos := fieldPos w.lengthSize cursor
  let (length, cursor) ← readUint body cursor w.lengthSize
  pure (⟨offsetPos, lengthPos, offset, length⟩, cursor)

def parseIlocExtents (w : IlocWidths) (body : List UInt8) :
    Nat → Nat → Except HeifError (List IlocExtent × Nat)
  | 0, cursor => pure ([], cursor)
  | count + 1, cursor => do
      let (extent, cursor) ← parseIlocExtent w body cursor
      let (extents, cursor) ← parseIlocExtents w body count cursor
      pure (extent :: extents, cursor)

/-- The method is in four bits of a field that version 0 has not. -/
def parseConstructionMethod (w : IlocWidths) (body : List UInt8) (cursor : Nat) :
    Except HeifError (Nat × Nat) :=
  if w.version = 0 then pure (0, cursor)
  else do
    let (packed, cursor) ← readUint body cursor 2
    pure (packed % 16, cursor)

def parseIlocItem (w : IlocWidths) (body : List UInt8) (itemIds : List Nat) (cursor : Nat) :
    Except HeifError (IlocItem × Nat) := do
  let (itemId, cursor) ← readUint body cursor w.itemIdSize
  ensure (itemId < 2 ^ 32) (invalidLayout "iloc item ID is too large")
  ensure (itemId ∉ itemIds) (invalidLayout "iloc contains duplicate item IDs")
  let (constructionMethod, cursor) ← parseConstructionMethod w body cursor
  let (dataReferenceIndex, cursor) ← readUint body cursor 2
  ensure (dataReferenceIndex < 2 ^ 16) (invalidLayout "iloc data reference index is too large")
  let baseOffsetPos := fieldPos w.baseOffsetSize cursor
  let (baseOffset, cursor) ← readUint body cursor w.baseOffsetSize
  let (extentCount, cursor) ← readUint body cursor 2
  let maxExtents :=
    if w.minExtentBytes = 0 then 1 else (body.length - cursor) / w.minExtentBytes
  ensure (extentCount ≤ maxExtents) (invalidLayout "iloc extent count exceeds its box body")
  let (extents, cursor) ← parseIlocExtents w body extentCount cursor
  pure (⟨itemId, constructionMethod, dataReferenceIndex, baseOffsetPos, baseOffset, extents⟩,
    cursor)

/-- The items, after those with the given ids. -/
def parseIlocItems (w : IlocWidths) (body : List UInt8) :
    Nat → List Nat → Nat → Except HeifError (List IlocItem × Nat)
  | 0, _, cursor => pure ([], cursor)
  | count + 1, itemIds, cursor => do
      let (item, cursor) ← parseIlocItem w body itemIds cursor
      let (items, cursor) ← parseIlocItems w body count (itemIds ++ [item.itemId]) cursor
      pure (item :: items, cursor)

/-- The version and the field widths of an `iloc` box. -/
def parseIlocWidths (body : List UInt8) : Except HeifError IlocWidths := do
  let version := (body.headD 0).toNat
  ensure (version ≤ 2) (invalidLayout "unsupported iloc version")
  let sizes := (body.getD 4 0).toNat
  let sizes' := (body.getD 5 0).toNat
  let w : IlocWidths := {
    version := version
    offsetSize := sizes / 16
    lengthSize := sizes % 16
    baseOffsetSize := sizes' / 16
    indexSize := if version = 0 then 0 else sizes' % 16 }
  ensure (∀ size ∈ [w.offsetSize, w.lengthSize, w.baseOffsetSize, w.indexSize],
    size = 0 ∨ size = 4 ∨ size = 8) (invalidLayout "iloc uses a reserved field width")
  pure w

/-- The position, the width and the value of the number of items. -/
def parseIlocCount (w : IlocWidths) (body : List UInt8) : Except HeifError (Nat × Nat × Nat) :=
  if w.version = 2 then do
    ensure (10 ≤ body.length) (invalidLayout "iloc version 2 box is truncated")
    pure (6, 4, beNat (slice body 6 10))
  else pure (6, 2, beNat (slice body 6 8))

def parseIlocBody (body : List UInt8) : Except HeifError IlocLayout := do
  ensure (8 ≤ body.length) (invalidLayout "iloc box is truncated")
  let w ← parseIlocWidths body
  let (countPos, countSize, count) ← parseIlocCount w body
  let bodyAfterCount := body.length - (countPos + countSize)
  ensure (count ≤ bodyAfterCount / w.minItemBytes)
    (invalidLayout "iloc item count exceeds its box body")
  let (items, cursor) ← parseIlocItems w body count [] (countPos + countSize)
  ensure (cursor = body.length) (invalidLayout "iloc contains an unparsed tail")
  ensure (∀ item ∈ items, item.dataReferenceIndex = 0)
    (invalidLayout "HEIC item uses an external data reference")
  pure { toIlocWidths := w, countPos, countSize, items }

def parseIloc (bytes : List UInt8) (iloc : RawBox) : Except HeifError IlocLayout :=
  parseIlocBody (bodyOf bytes iloc)

/-- The bytes of the extents of an item. -/
def resolveItemExtents (bytes : List UInt8) (item : IlocItem) :
    Except HeifError (List (List UInt8)) :=
  item.extents.mapM (fun extent => do
    let start ← require (invalidLayout "HEIC item offset overflows")
      (checkedAdd item.baseOffset extent.offset)
    let stop ← require (invalidLayout "HEIC item extent overflows")
      (checkedAdd start extent.length)
    require (invalidLayout "HEIC item extent is outside the file") (slice? bytes start stop))

/-! ## the meta box -/

def parsePrimaryItemId (bytes : List UInt8) (pitm : RawBox) : Except HeifError Nat := do
  let body := bodyOf bytes pitm
  ensure (6 ≤ body.length) (invalidLayout "pitm box is truncated")
  match body.headD 0 with
  | 0 => pure (beNat (slice body 4 6))
  | 1 => do
      let itemId ← require (invalidLayout "pitm version 1 box is truncated") (slice? body 4 8)
      pure (beNat itemId)
  | _ => .error (invalidLayout "unsupported pitm version")

/-- What `find_meta_layout` returns. -/
structure MetaLayout where
  «meta» : RawBox
  iinf : RawBox
  iloc : RawBox
  iref : Option RawBox
  primaryItemId : Nat
  prefixSize : Nat
  deriving DecidableEq

def maxRewriteMetaBytes : Nat := 8 * 1024 * 1024

/-- The number of bytes in a `meta` body before its boxes, of which the first is `hdlr`. -/
def metaPrefixSize (bytes : List UInt8) (bodyStart : Nat) : Except HeifError Nat :=
  if slice? bytes (bodyStart + 8) (bodyStart + 12) = some (ascii "hdlr") then pure 4
  else if slice? bytes (bodyStart + 4) (bodyStart + 8) = some (ascii "hdlr") then pure 0
  else .error (invalidLayout "HEIC meta box has no handler box")

def findMetaLayout (bytes : List UInt8) : Except HeifError MetaLayout := do
  let top ← scanRawBoxes bytes 0 bytes.length
  let metaBox ← uniqueRequiredBox top (ascii "meta") "HEIC has no top-level meta box"
    "HEIC has multiple top-level meta boxes"
  ensure (metaBox.size ≤ maxRewriteMetaBytes)
    (invalidLayout "HEIC meta box is too large to rewrite safely")
  ensure (metaBox.headerSize = 8) (invalidLayout "large-size meta boxes are unsupported")
  let prefixSize ← metaPrefixSize bytes metaBox.bodyStart
  let children ← scanRawBoxes bytes (metaBox.bodyStart + prefixSize) metaBox.stop
  let iinf ← uniqueRequiredBox children (ascii "iinf") "HEIC meta box has no iinf box"
    "HEIC meta box has multiple iinf boxes"
  let iloc ← uniqueRequiredBox children (ascii "iloc") "HEIC meta box has no iloc box"
    "HEIC meta box has multiple iloc boxes"
  let iref ← uniqueOptionalBox children (ascii "iref") "HEIC meta box has multiple iref boxes"
  let pitm ← uniqueRequiredBox children (ascii "pitm") "HEIC meta box has no primary item"
    "HEIC meta box has multiple primary-item boxes"
  let primaryItemId ← parsePrimaryItemId bytes pitm
  ensure (iinf.headerSize = 8 ∧ iloc.headerSize = 8)
    (invalidLayout "large-size iinf or iloc boxes are unsupported")
  ensure (∀ box ∈ iref, box.headerSize = 8)
    (invalidLayout "large-size iref boxes are unsupported")
  pure ⟨metaBox, iinf, iloc, iref, primaryItemId, prefixSize⟩

/-! ## item references -/

/-- The width of the item ids in an `iref` box of a version. -/
def irefIdWidth (version : UInt8) : Except HeifError Nat :=
  match version with
  | 0 => pure 2
  | 1 => pure 4
  | _ => .error (invalidLayout "unsupported iref version")

/-- The source and the targets of a box in `iref`. -/
def parseReference (version : UInt8) (childBody : List UInt8) :
    Except HeifError (Nat × List Nat) := do
  let idWidth ← irefIdWidth version
  ensure (idWidth + 2 ≤ childBody.length)
    (invalidLayout
      (if version = 0 then "iref child is truncated" else "iref version 1 child is truncated"))
  let fromItemId := beNat (slice childBody 0 idWidth)
  let count := beNat (slice childBody idWidth (idWidth + 2))
  ensure (childBody.length = idWidth + 2 + count * idWidth)
    (invalidLayout "iref reference list is inconsistent")
  pure (fromItemId, (List.range count).map (fun index =>
    let start := idWidth + 2 + index * idWidth
    beNat (slice childBody start (start + idWidth))))

def referencePairsBody (body referenceType : List UInt8) :
    Except HeifError (List (Nat × List Nat)) := do
  ensure (4 ≤ body.length) (invalidLayout "iref box is truncated")
  let version := body.headD 0
  let children ← scanRawBoxes body 4 body.length
  (children.filter (fun child => child.kind = referenceType)).mapM (fun child =>
    parseReference version (bodyOf body child))

def itemReferencePairs (bytes : List UInt8) (iref : RawBox) (referenceType : List UInt8) :
    Except HeifError (List (Nat × List Nat)) :=
  referencePairsBody (bodyOf bytes iref) referenceType

def cdscPairs (bytes : List UInt8) (iref : RawBox) : Except HeifError (List (Nat × List Nat)) :=
  itemReferencePairs bytes iref (ascii "cdsc")

/-- The item among some that the references tie to the primary item, else the only one that
they tie to none.  XMP and Exif items are selected alike, apart from the messages. -/
def selectItemId (pairs : List (Nat × List Nat)) (primaryItemId : Nat) (itemIds : List Nat)
    (severalPrimary severalUnattributed : String) : Except HeifError (Option Nat) :=
  match itemIds.filter (fun itemId =>
    pairs.any (fun pair => pair.1 = itemId && pair.2.contains primaryItemId)) with
  | [itemId] => pure (some itemId)
  | _ :: _ => .error (invalidLayout severalPrimary)
  | [] =>
      match itemIds.filter (fun itemId => !pairs.any (fun pair => pair.1 = itemId)) with
      | [] => pure none
      | [itemId] => pure (some itemId)
      | _ => .error (invalidLayout severalUnattributed)

def selectXmpItemId (bytes : List UInt8) (iref : Option RawBox) (primaryItemId : Nat)
    (xmpItemIds : List Nat) : Except HeifError (Option Nat) :=
  match xmpItemIds, iref with
  | [], _ => pure none
  | [first], none => pure (some first)
  | _, none =>
      .error (invalidLayout "multiple XMP items have no primary-image association")
  | itemIds, some iref => do
      let pairs ← cdscPairs bytes iref
      selectItemId pairs primaryItemId itemIds "multiple XMP items describe the primary image"
        "multiple XMP items have no primary-image association"

end Kei.Heif
