import Kei.Lib.Str
import Mathlib.Data.Finmap

/-!
# Kei.Sidecar

The XMP sidecar of a photo, and how kei writes into one that others write too.

A packet is a finite map of properties.  kei lists the fields that it wrote in
a property of its own, so that a later write removes what it no longer
contains and nothing else.
-/

namespace Kei.Sidecar

/-! ## packets -/

inductive XmpNs where
  | xmp
  | exif
  | photoshop
  | dc
  | iptcExt
  /-- `EXIF_EX_XMP_NS`. -/
  | exifEx
  /-- `KEI_XMP_NS`. -/
  | kei
  | other (uri : String)
  deriving DecidableEq

inductive PropertyPath where
  | name (name : String)
  /-- The item of a language, as `compose_lang_selector` names it. -/
  | localized (array lang : String)
  deriving DecidableEq

structure Property where
  ns : XmpNs
  path : PropertyPath
  deriving DecidableEq

inductive XmpValue where
  | text (value : String)
  | array (items : List String)
  deriving DecidableEq

abbrev XmpMeta := Finmap (fun _ : Property => XmpValue)

/-- `XmpMeta::property`; an array has no text of its own. -/
def propertyText (packet : XmpMeta) (property : Property) : Option String :=
  (packet.lookup property).map (fun value =>
    match value with
    | .text value => value
    | .array _ => "")

/-- A call of the toolkit that changes the packet. -/
inductive XmpCall where
  | set (property : Property) (value : String)
  | delete (property : Property)
  /-- Put an item behind those of an array, which is created if there is none. -/
  | append (property : Property) (item : String)

namespace XmpCall

def property : XmpCall → Property
  | set property _ | delete property | append property _ => property

/-- The items of what is at a property. -/
def items : Option XmpValue → List String
  | some (.array items) => items
  | some (.text _) | none => []

def run (packet : XmpMeta) : XmpCall → XmpMeta
  | set property value => packet.insert property (.text value)
  | delete property => packet.erase property
  | append property item =>
      packet.insert property (.array (items (packet.lookup property) ++ [item]))

end XmpCall

def runCalls (packet : XmpMeta) (calls : List XmpCall) : XmpMeta := calls.foldl XmpCall.run packet

/-! ## writes -/

structure XmpRational where
  numerator : UInt32
  denominator : UInt32

def XmpRational.encode (r : XmpRational) : String :=
  toString r.numerator.toNat ++ "/" ++ toString r.denominator.toNat

/-- Coordinates in floating point numbers `F`. -/
structure GpsCoords (F : Type) where
  latitude : F
  longitude : F
  altitude : Option F

/-- What is done with floating point numbers. -/
structure FloatFormat (F : Type) where
  encodeGps : F → (pos neg : Char) → String
  encodeAltitude : F → String
  isNegative : F → Bool

/-- What `apply_to_xmp` reads of a write. -/
structure MetadataWrite (F : Type) where
  datetime : Option String
  offsetTimeOriginal : Option String
  clearDatetimeOffsets : Bool
  gpsDatetime : Option String
  gpsSpeed : Option XmpRational
  gpsSpeedRef : Option String
  gpsHPositioningError : Option XmpRational
  /-- The source could not be read, so the GPS fields of it stay. -/
  preserveSourceGps : Bool
  rating : Option UInt8
  gps : Option (GpsCoords F)
  title : Option String
  description : Option String
  keywords : List String
  people : List String
  isHidden : Bool
  isArchived : Bool
  mediaSubtype : Option String
  burstId : Option String

/-- Characters with the positions of their first bytes. -/
def bytePositions : Nat → List Char → List (Nat × Char)
  | _, [] => []
  | pos, c :: cs => (pos, c) :: bytePositions (pos + c.utf8Size) cs

def exifDatetimeToIso (s : String) : String :=
  let chars := bytePositions 0 s.toList
  if Str.byteLen s = 19 && chars.contains (4, ':') && chars.contains (7, ':') &&
      chars.contains (10, ' ') then
    String.ofList (chars.map (fun entry =>
      if entry.1 = 4 || entry.1 = 7 then '-' else if entry.1 = 10 then 'T' else entry.2))
  else s

/-! ## managed fields -/

inductive ManagedXmpField where
  | createDate
  | modifyDate
  | dateTimeOriginal
  | dateCreated
  | offsetTimeOriginal
  | gpsDateTime
  | gpsSpeed
  | gpsSpeedRef
  | gpsHPositioningError
  | rating
  | gpsLatitude
  | gpsLongitude
  | gpsAltitude
  | gpsAltitudeRef
  | title
  | description
  | keywords
  | people
  | hidden
  | archived
  | mediaSubtype
  | burstId
  deriving DecidableEq

def managedXmpFields : List ManagedXmpField :=
  [.createDate, .modifyDate, .dateTimeOriginal, .dateCreated, .offsetTimeOriginal, .gpsDateTime,
    .gpsSpeed, .gpsSpeedRef, .gpsHPositioningError, .rating, .gpsLatitude, .gpsLongitude,
    .gpsAltitude, .gpsAltitudeRef, .title, .description, .keywords, .people, .hidden, .archived,
    .mediaSubtype, .burstId]

namespace ManagedXmpField

def token : ManagedXmpField → String
  | createDate => "xmp:CreateDate"
  | modifyDate => "xmp:ModifyDate"
  | dateTimeOriginal => "exif:DateTimeOriginal"
  | dateCreated => "photoshop:DateCreated"
  | offsetTimeOriginal => "exifEX:OffsetTimeOriginal"
  | gpsDateTime => "exif:GPSTimeStamp"
  | gpsSpeed => "exif:GPSSpeed"
  | gpsSpeedRef => "exif:GPSSpeedRef"
  | gpsHPositioningError => "exif:GPSHPositioningError"
  | rating => "xmp:Rating"
  | gpsLatitude => "exif:GPSLatitude"
  | gpsLongitude => "exif:GPSLongitude"
  | gpsAltitude => "exif:GPSAltitude"
  | gpsAltitudeRef => "exif:GPSAltitudeRef"
  | title => "dc:title[x-default]"
  | description => "dc:description[x-default]"
  | keywords => "dc:subject"
  | people => "iptcExt:PersonInImage"
  | hidden => "kei:hidden"
  | archived => "kei:archived"
  | mediaSubtype => "kei:mediaSubtype"
  | burstId => "kei:burstId"

def isPresent (write : MetadataWrite F) : ManagedXmpField → Bool
  | createDate | modifyDate | dateTimeOriginal | dateCreated => write.datetime.isSome
  | offsetTimeOriginal => write.offsetTimeOriginal.isSome
  | gpsDateTime => write.gpsDatetime.isSome
  | gpsSpeed => write.gpsSpeed.isSome
  | gpsSpeedRef => write.gpsSpeedRef.isSome
  | gpsHPositioningError => write.gpsHPositioningError.isSome
  | rating => write.rating.isSome
  | gpsLatitude | gpsLongitude => write.gps.isSome
  | gpsAltitude | gpsAltitudeRef => write.gps.any (fun gps => gps.altitude.isSome)
  | title => write.title.isSome
  | description => write.description.isSome
  | keywords => !write.keywords.isEmpty
  | people => !write.people.isEmpty
  | hidden => write.isHidden
  | archived => write.isArchived
  | mediaSubtype => write.mediaSubtype.isSome
  | burstId => write.burstId.isSome

def isSourceGps : ManagedXmpField → Bool
  | gpsDateTime | gpsSpeed | gpsSpeedRef | gpsHPositioningError => true
  | _ => false

/-- The property that `delete` removes. -/
def property : ManagedXmpField → Property
  | createDate => ⟨.xmp, .name "CreateDate"⟩
  | modifyDate => ⟨.xmp, .name "ModifyDate"⟩
  | dateTimeOriginal => ⟨.exif, .name "DateTimeOriginal"⟩
  | dateCreated => ⟨.photoshop, .name "DateCreated"⟩
  | offsetTimeOriginal => ⟨.exifEx, .name "OffsetTimeOriginal"⟩
  | gpsDateTime => ⟨.exif, .name "GPSTimeStamp"⟩
  | gpsSpeed => ⟨.exif, .name "GPSSpeed"⟩
  | gpsSpeedRef => ⟨.exif, .name "GPSSpeedRef"⟩
  | gpsHPositioningError => ⟨.exif, .name "GPSHPositioningError"⟩
  | rating => ⟨.xmp, .name "Rating"⟩
  | gpsLatitude => ⟨.exif, .name "GPSLatitude"⟩
  | gpsLongitude => ⟨.exif, .name "GPSLongitude"⟩
  | gpsAltitude => ⟨.exif, .name "GPSAltitude"⟩
  | gpsAltitudeRef => ⟨.exif, .name "GPSAltitudeRef"⟩
  | title => ⟨.dc, .localized "title" "x-default"⟩
  | description => ⟨.dc, .localized "description" "x-default"⟩
  | keywords => ⟨.dc, .name "subject"⟩
  | people => ⟨.iptcExt, .name "PersonInImage"⟩
  | hidden => ⟨.kei, .name "hidden"⟩
  | archived => ⟨.kei, .name "archived"⟩
  | mediaSubtype => ⟨.kei, .name "mediaSubtype"⟩
  | burstId => ⟨.kei, .name "burstId"⟩

end ManagedXmpField

/-- `KEI_MANAGED_FIELDS`. -/
def keiManagedFields : Property := ⟨.kei, .name "managedFields"⟩

/-! ## applying a write -/

/-- Calls for a value that is there. -/
def ifSome (value : Option α) (calls : α → List XmpCall) : List XmpCall :=
  match value with
  | some a => calls a
  | none => []

/-- An array with these items in place of the one that is there. -/
def replaceArray (property : Property) (items : List String) : List XmpCall :=
  if items.isEmpty then [] else .delete property :: items.map (.append property)

def ifTrue (condition : Bool) (call : XmpCall) : List XmpCall := if condition then [call] else []

/-- The calls of `apply_to_xmp`. -/
def xmpCalls (fmt : FloatFormat F) (write : MetadataWrite F) : List XmpCall :=
  (if write.clearDatetimeOffsets then
    ["OffsetTimeOriginal", "OffsetTimeDigitized", "OffsetTime"].map
      (fun path => .delete ⟨.exifEx, .name path⟩)
  else []) ++
  ifSome write.datetime (fun dt =>
    let iso := exifDatetimeToIso dt
    let isoWithOffset := (write.offsetTimeOriginal.map (iso ++ ·)).getD iso
    [.set ⟨.xmp, .name "CreateDate"⟩ isoWithOffset,
      .set ⟨.xmp, .name "ModifyDate"⟩ isoWithOffset,
      .set ⟨.exif, .name "DateTimeOriginal"⟩ isoWithOffset,
      .set ⟨.photoshop, .name "DateCreated"⟩ isoWithOffset]) ++
  ifSome write.offsetTimeOriginal (fun offset =>
    [.set ⟨.exifEx, .name "OffsetTimeOriginal"⟩ offset]) ++
  ifSome write.gpsDatetime (fun dt => [.set ⟨.exif, .name "GPSTimeStamp"⟩ dt]) ++
  ifSome write.gpsSpeed (fun speed => [.set ⟨.exif, .name "GPSSpeed"⟩ speed.encode]) ++
  ifSome write.gpsSpeedRef (fun speedRef => [.set ⟨.exif, .name "GPSSpeedRef"⟩ speedRef]) ++
  ifSome write.gpsHPositioningError (fun error =>
    [.set ⟨.exif, .name "GPSHPositioningError"⟩ error.encode]) ++
  ifSome write.rating (fun r => [.set ⟨.xmp, .name "Rating"⟩ (toString (min r.toNat 5))]) ++
  ifSome write.gps (fun gps =>
    [.set ⟨.exif, .name "GPSLatitude"⟩ (fmt.encodeGps gps.latitude 'N' 'S'),
      .set ⟨.exif, .name "GPSLongitude"⟩ (fmt.encodeGps gps.longitude 'E' 'W')] ++
    ifSome gps.altitude (fun alt =>
      [.set ⟨.exif, .name "GPSAltitude"⟩ (fmt.encodeAltitude alt),
        .set ⟨.exif, .name "GPSAltitudeRef"⟩ (if fmt.isNegative alt then "1" else "0")])) ++
  ifSome write.title (fun title => [.set ⟨.dc, .localized "title" "x-default"⟩ title]) ++
  ifSome write.description (fun desc =>
    [.set ⟨.dc, .localized "description" "x-default"⟩ desc]) ++
  replaceArray ⟨.dc, .name "subject"⟩ write.keywords ++
  replaceArray ⟨.iptcExt, .name "PersonInImage"⟩ write.people ++
  ifTrue write.isHidden (.set ⟨.kei, .name "hidden"⟩ "True") ++
  ifTrue write.isArchived (.set ⟨.kei, .name "archived"⟩ "True") ++
  ifSome write.mediaSubtype (fun subtype => [.set ⟨.kei, .name "mediaSubtype"⟩ subtype]) ++
  ifSome write.burstId (fun burst => [.set ⟨.kei, .name "burstId"⟩ burst])

def applyToXmp (fmt : FloatFormat F) (packet : XmpMeta) (write : MetadataWrite F) : XmpMeta :=
  runCalls packet (xmpCalls fmt write)

/-- The tokens that the packet lists. -/
def listedTokens (packet : XmpMeta) : List String :=
  (Str.split ((propertyText packet keiManagedFields).getD "") ',').filter (fun token => token ≠ "")

/-- The field stays although the write does not contain it. -/
def ManagedXmpField.preserved (write : MetadataWrite F) (field : ManagedXmpField) : Bool :=
  write.preserveSourceGps && field.isSourceGps

def applyToOwnedSidecar (fmt : FloatFormat F) (packet : XmpMeta) (write : MetadataWrite F) :
    XmpMeta :=
  let previousTokens := listedTokens packet
  let cleared := managedXmpFields.foldl (fun packet field =>
    if previousTokens.contains field.token && !field.isPresent write &&
        !field.preserved write then
      packet.erase field.property
    else packet) packet
  let applied := applyToXmp fmt cleared write
  let keptTokens := previousTokens.filter (fun token =>
    !managedXmpFields.any (fun field => field.token = token && !field.preserved write))
  let currentTokens := keptTokens ++
    (managedXmpFields.filter (fun field => field.isPresent write)).map (·.token)
  if currentTokens.isEmpty then applied.erase keiManagedFields
  else applied.insert keiManagedFields (.text (",".intercalate currentTokens))

/-! ## the writes that are planned -/

/-- `SourceGpsMetadata`. -/
structure SourceGpsMetadata where
  datetime : Option String
  speed : Option XmpRational
  speedRef : Option String
  horizontalPositioningError : Option XmpRational

structure MetadataPayload (F : Type) where
  timezoneOffset : Option Int
  rating : Option UInt8
  latitude : Option F
  longitude : Option F
  altitude : Option F
  title : Option String
  description : Option String
  keywords : List String
  people : List String
  isHidden : Bool
  isArchived : Bool
  mediaSubtype : Option String
  burstId : Option String

namespace MetadataPayload

variable (payload : MetadataPayload F)

def gps : Option (GpsCoords F) :=
  match payload.latitude, payload.longitude with
  | some lat, some lng => some ⟨lat, lng, payload.altitude⟩
  | _, _ => none

def twoDigits (n : Nat) : String := if n < 10 then "0" ++ toString n else toString n

/-- `offset_time_original`. -/
def offsetTimeOriginal : Option String :=
  (payload.timezoneOffset.filter (fun seconds => -86400 < seconds && seconds < 86400)).bind
    (fun seconds =>
      if seconds % 60 ≠ 0 then none
      else
        let minutes := seconds.natAbs / 60
        some ((if seconds < 0 then "-" else "+") ++ twoDigits (minutes / 60) ++ ":" ++
          twoDigits (minutes % 60)))

end MetadataPayload

/-- A write as it is planned for a sidecar. -/
structure SidecarWrite (F : Type) extends MetadataWrite F where
  /-- A sidecar has no offsets of another timestamp. -/
  keepsOffsets : clearDatetimeOffsets = false

/-- `plan_sidecar_write`; a source that cannot be read gives no GPS metadata. -/
def planSidecarWrite (sourceGps : Option SourceGpsMetadata) (payload : MetadataPayload F)
    (createdLocal : String) : SidecarWrite F where
  datetime := some createdLocal
  offsetTimeOriginal := payload.offsetTimeOriginal
  clearDatetimeOffsets := false
  gpsDatetime := sourceGps.bind (·.datetime)
  gpsSpeed := sourceGps.bind (·.speed)
  gpsSpeedRef := sourceGps.bind (·.speedRef)
  gpsHPositioningError := sourceGps.bind (·.horizontalPositioningError)
  preserveSourceGps := sourceGps.isNone
  rating := payload.rating
  gps := payload.gps
  title := payload.title
  description := payload.description
  keywords := payload.keywords
  people := payload.people
  isHidden := payload.isHidden
  isArchived := payload.isArchived
  mediaSubtype := payload.mediaSubtype
  burstId := payload.burstId
  keepsOffsets := rfl

end Kei.Sidecar
