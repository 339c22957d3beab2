import Kei.Download.Paths
import Kei.PhotoStream
import Mathlib.Data.List.AList
import Mathlib.Algebra.Ring.Int.Defs

/-!
# Kei.Changes

The records of a changes feed, and the buffer that makes events of them.

A photo is a master record and an asset record that refers to it.  The feed has
them in any order, so the buffer keeps a half until the other one comes; what
is left at the end is flushed by itself.
-/

namespace Kei.Changes

open Str PhotoStream

/-! ## records -/

structure Record extends PhotoStream.Record where
  deleted : Option Bool

inductive ChangeReason where
  | hardDeleted
  | softDeleted
  | hidden
  | created
  deriving DecidableEq

def decimal (digits : List Char) : Option Nat :=
  if digits ≠ [] ∧ digits.all Char.isDigit then
    some (digits.foldl (fun n c => 10 * n + (c.toNat - '0'.toNat)) 0)
  else none

/-- `Value::as_i64`. -/
def asI64 : Json → Option Int
  | .number text =>
      let n : Option Int :=
        match text.toList with
        | '-' :: digits => (decimal digits).map (fun n => -(n : Int))
        | digits => (decimal digits).map (fun n => (n : Int))
      n.filter (fun n => -2 ^ 63 ≤ n && n < 2 ^ 63)
  | _ => none

/-- The `value` of a field. -/
def fieldValue (fields : Json) (name : String) : Option Json :=
  (fields.get name).bind (·.get "value")

def fieldValueStr (fields : Json) (name : String) : Option String :=
  (fieldValue fields name).bind (·.asStr)

def classifyChangeReason (rec : Record) : ChangeReason :=
  if rec.deleted = some true then .hardDeleted
  else if (fieldValue rec.fields "isDeleted").bind asI64 = some 1 then .softDeleted
  else if (fieldValue rec.fields "isHidden").bind asI64 = some 1 then .hidden
  else .created

def isBlank (name : String) : Bool := trim name = ""

/-- The libraries that the records are read with. -/
structure Host where
  platform : Download.Platform
  decodeBase64 : String → Option String
  /-- The number as milliseconds of a date. -/
  dateOfNumber : String → Option Int

def plainHost : Host := ⟨.linux, fun _ => none, fun _ => some 0⟩

/-- `enc::decode_string`. -/
def decodeString (host : Host) (fields : Json) (key : String) : Option String :=
  match fields.get key with
  | none | some .null => none
  | some entry =>
      match (entry.get "value").bind (·.asStr) with
      | none => none
      | some value =>
          match ((entry.get "type").bind (·.asStr)).getD "ENCRYPTED_BYTES" with
          | "STRING" => some value
          | "ENCRYPTED_BYTES" => host.decodeBase64 value
          | _ => none

/-! ## events -/

structure AlbumContainerDelta where
  containerId : String
  albumName : String
  isDeleted : Bool

structure AlbumRelationDelta where
  containerId : String
  assetRecordName : String
  isDeleted : Bool

/-- An asset, with the fields of the two records that the rest of it is read from. -/
structure PhotoAsset where
  recordName : String
  assetRecordName : String
  stateRecordName : Option String
  sourceZone : Option String
  masterFields : Json
  assetFields : Json

structure ChangeEvent where
  recordName : String
  recordType : Option String
  masterRecordName : Option String
  reason : ChangeReason
  asset : Option PhotoAsset
  album : Option AlbumContainerDelta
  relation : Option AlbumRelationDelta
  tokenUnsafeReason : Option String

def ChangeEvent.new (recordName : String) (recordType : Option String) (reason : ChangeReason) :
    ChangeEvent :=
  ⟨recordName, recordType, none, reason, none, none, none, none⟩

def malformedRequiredAssetFieldsReason : String := "malformed_required_asset_fields"

/-! ## assets -/

inductive RequiredAssetFields where
  | identity
  | downloadable
  deriving DecidableEq

inductive MalformedRequiredAssetField where
  | masterRecordName
  | assetRecordName
  | assetDate
  deriving DecidableEq

def assetDate (host : Host) (fields : Json) : Option Int :=
  match fieldValue fields "assetDate" with
  | some (.number text) => host.dateOfNumber text
  | _ => none

def PhotoAsset.fromRecords (master asset : Record) : PhotoAsset :=
  ⟨master.recordName, asset.recordName, none, none, master.fields, asset.fields⟩

def PhotoAsset.tryFromRecords (host : Host) (master asset : Record)
    (required : RequiredAssetFields) : Except MalformedRequiredAssetField PhotoAsset :=
  if isBlank master.recordName then .error .masterRecordName
  else if isBlank asset.recordName then .error .assetRecordName
  else if required = .downloadable ∧ assetDate host asset.fields = none then .error .assetDate
  else .ok (.fromRecords master asset)

/-! ## album deltas -/

def ChangeReason.isDeletion : ChangeReason → Bool
  | .hardDeleted | .softDeleted => true
  | _ => false

def parseAlbumDelta (host : Host) (rec : Record) (reason : ChangeReason) : ChangeEvent :=
  let albumName := ((decodeString host rec.fields "albumNameEnc").or
    (fieldValueStr rec.fields "albumName")).getD rec.recordName
  { ChangeEvent.new rec.recordName (some rec.recordType) reason with
    album := some ⟨rec.recordName, Download.sanitizePathComponent host.platform albumName,
      reason.isDeletion⟩ }

/-- The text before and after the last occurrence of the separator. -/
def rsplitOnceList (separator : List Char) : List Char → Option (List Char × List Char)
  | [] => none
  | c :: cs =>
      match rsplitOnceList separator cs with
      | some (front, back) => some (c :: front, back)
      | none =>
          if (c :: cs).take separator.length = separator then
            some ([], (c :: cs).drop separator.length)
          else none

def parseRelationRecordName (recordName : String) : Option (String × String) :=
  match rsplitOnceList "-IN-".toList recordName.toList with
  | some (asset, container) =>
      if asset ≠ [] ∧ container ≠ [] then some (String.ofList asset, String.ofList container)
      else none
  | none => none

def parseRelationDelta (rec : Record) (reason : ChangeReason) : ChangeEvent :=
  let parsed : Option (String × String) :=
    if reason.isDeletion then
      (parseRelationRecordName rec.recordName).map (fun (asset, container) => (container, asset))
    else
      (fieldValueStr rec.fields "containerId").bind (fun container =>
        (fieldValueStr rec.fields "itemId").map (fun item => (container, item)))
  let event := ChangeEvent.new rec.recordName (some "CPLContainerRelation") reason
  match parsed with
  | some (containerId, assetRecordName) =>
      { event with relation := some ⟨containerId, assetRecordName, reason.isDeletion⟩ }
  | none => { event with tokenUnsafeReason := some "unparsable_relation_delta" }

/-! ## pairs -/

def ChangeReason.severity : ChangeReason → Nat
  | .hardDeleted => 3
  | .softDeleted => 2
  | .hidden => 1
  | .created => 0

def reconcileReasons (a b : ChangeReason) : ChangeReason :=
  if b.severity ≤ a.severity then a else b

def emitPaired (host : Host) (master asset : Record) (reason : ChangeReason)
    (useAssetStateId : Bool) : ChangeEvent :=
  let required := if reason = .created then RequiredAssetFields.downloadable else .identity
  let event := ChangeEvent.new master.recordName (some "CPLMaster") reason
  match PhotoAsset.tryFromRecords host master asset required with
  | .error _ => { event with tokenUnsafeReason := some malformedRequiredAssetFieldsReason }
  | .ok photo =>
      { event with
        asset := some (if useAssetStateId then
          { photo with stateRecordName := some asset.recordName } else photo) }

def emitPairedGroup (host : Host) (master : Record) (assets : List Record)
    (masterReason : ChangeReason) : List ChangeEvent :=
  assets.zipIdx.map (fun entry =>
    emitPaired host master entry.1 (reconcileReasons masterReason (classifyChangeReason entry.1))
      (1 < assets.length && 0 < entry.2))

/-! ## the buffer -/

structure DeltaRecordBuffer where
  pendingMasters : AList (fun _ : String => Record)
  /-- By the name of their master. -/
  pendingAssets : AList (fun _ : String => List Record)
  pairedMasters : AList (fun _ : String => Record)

def DeltaRecordBuffer.new : DeltaRecordBuffer := ⟨∅, ∅, ∅⟩

def DeltaRecordBuffer.placeMaster (host : Host) (b : DeltaRecordBuffer) (rec : Record)
    (reason : ChangeReason) : DeltaRecordBuffer × List ChangeEvent :=
  match b.pendingAssets.lookup rec.recordName with
  | some assets =>
      ({ b with
          pendingAssets := b.pendingAssets.erase rec.recordName,
          pairedMasters := b.pairedMasters.insert rec.recordName rec },
        emitPairedGroup host rec assets reason)
  | none => ({ b with pendingMasters := b.pendingMasters.insert rec.recordName rec }, [])

def DeltaRecordBuffer.placeAsset (host : Host) (b : DeltaRecordBuffer) (rec : Record)
    (reason : ChangeReason) : DeltaRecordBuffer × List ChangeEvent :=
  match rec.masterRef with
  | none => (b, [ChangeEvent.new rec.recordName (some "CPLAsset") reason])
  | some masterName =>
      match b.pendingMasters.lookup masterName with
      | some master =>
          ({ b with
              pendingMasters := b.pendingMasters.erase masterName,
              pairedMasters := b.pairedMasters.insert masterName master },
            [emitPaired host master rec (reconcileReasons (classifyChangeReason master) reason)
              false])
      | none =>
          match b.pairedMasters.lookup masterName with
          | some master =>
              (b, [emitPaired host master rec
                (reconcileReasons (classifyChangeReason master) reason) true])
          | none =>
              ({ b with
                  pendingAssets := b.pendingAssets.insert masterName
                    ((b.pendingAssets.lookup masterName).getD [] ++ [rec]) }, [])

/-- One record of a page. -/
def DeltaRecordBuffer.processRecord (host : Host) (b : DeltaRecordBuffer) (rec : Record) :
    DeltaRecordBuffer × List ChangeEvent :=
  let reason := classifyChangeReason rec
  if isBlank rec.recordName then
    (b, [{ ChangeEvent.new rec.recordName
        (if rec.recordType = "" then none else some rec.recordType) reason with
      tokenUnsafeReason := some malformedRequiredAssetFieldsReason }])
  else if reason = .hardDeleted then
    if rec.recordType = "CPLContainerRelation" then (b, [parseRelationDelta rec reason])
    else if rec.recordType = "CPLAlbum" then (b, [parseAlbumDelta host rec reason])
    else if (parseRelationRecordName rec.recordName).isSome then
      (b, [parseRelationDelta rec reason])
    else (b, [ChangeEvent.new rec.recordName none reason])
  else
    match rec.recordType with
    | "CPLMaster" => b.placeMaster host rec reason
    | "CPLAsset" => b.placeAsset host rec reason
    | "CPLAlbum" => (b, [parseAlbumDelta host rec reason])
    | "CPLContainerRelation" => (b, [parseRelationDelta rec reason])
    | _ => (b, [])

def DeltaRecordBuffer.processRecords (host : Host) :
    DeltaRecordBuffer → List Record → DeltaRecordBuffer × List ChangeEvent
  | b, [] => (b, [])
  | b, rec :: records =>
      let (b, events) := b.processRecord host rec
      let (b, later) := DeltaRecordBuffer.processRecords host b records
      (b, events ++ later)

/-- The orders in which the maps are drained. -/
structure DrainOrder where
  masters : List String → List String
  assets : List String → List String
  masters_perm : ∀ names, (masters names).Perm names
  assets_perm : ∀ names, (assets names).Perm names

/-- The maps are drained in the order of their keys. -/
def inOrder : DrainOrder := ⟨id, id, .refl, .refl⟩

def DeltaRecordBuffer.flush (drain : DrainOrder) (b : DeltaRecordBuffer) : List ChangeEvent :=
  (drain.masters b.pendingMasters.keys).flatMap (fun name =>
      ((b.pendingMasters.lookup name).map (fun rec =>
        ChangeEvent.new name (some "CPLMaster") (classifyChangeReason rec))).toList) ++
    (drain.assets b.pendingAssets.keys).flatMap (fun masterRef =>
      ((b.pendingAssets.lookup masterRef).getD []).map (fun rec =>
        { ChangeEvent.new rec.recordName (some "CPLAsset") (classifyChangeReason rec) with
          masterRecordName := some masterRef }))

/-- The pages of a feed. -/
def DeltaRecordBuffer.processPages (host : Host) :
    DeltaRecordBuffer → List (List Record) → DeltaRecordBuffer × List ChangeEvent
  | b, [] => (b, [])
  | b, page :: pages =>
      let (b, events) := b.processRecords host page
      let (b, later) := DeltaRecordBuffer.processPages host b pages
      (b, events ++ later)

/-- The events of a whole feed. -/
def changeEvents (host : Host) (drain : DrainOrder) (pages : List (List Record)) :
    List ChangeEvent :=
  let (b, events) := DeltaRecordBuffer.new.processPages host pages
  events ++ b.flush drain

end Kei.Changes
