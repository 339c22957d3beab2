import Kei.Heif.TiffRanges
import Kei.Lib.Reads
import Kei.Lib.Str

/-!
# Kei.Download.SourceGps

The GPS metadata of a JPEG, PNG or TIFF source.

A container is walked by the headers of its segments to the first one with
Exif data, and the IFDs in it are read for the GPS tags.  Every length and
offset is taken from the file.
-/

namespace Kei.Download

open Bytes Heif Reads Str

/-! ## reads -/

inductive TiffGpsError where
  /-- A read that goes on behind the end of the file. -/
  | io
  | malformed
  /-- Arithmetic that is not checked has overflowed, or a loop goes on for ever. -/
  | fault
  deriving DecidableEq

abbrev GpsReader (α : Type) := Reader TiffGpsError α

def orElse {α : Type} (e : TiffGpsError) (o : Option α) : GpsReader α :=
  o.elim (Prog.halt e) pure

def orMalformed {α : Type} (o : Option α) : GpsReader α := orElse .malformed o

def check (p : Prop) [Decidable p] : GpsReader Unit := orMalformed (if p then some () else none)

/-- Operations that the source does not check. -/
def plainAdd (a b : Nat) : GpsReader Nat := orElse .fault (checkedAdd a b)

def plainSub (a b : Nat) : GpsReader Nat := orElse .fault (if b ≤ a then some (a - b) else none)

def readExactFileRange (bytes : List UInt8) (offset n : Nat) : GpsReader (List UInt8) := do
  let _ ← orMalformed (checkedAdd offset n)
  range bytes .malformed offset n

/-! ## containers -/

/-- What a round of a walk comes to: the start and the length of the Exif data, if it is the last
one. -/
inductive Round where
  | done (exif : Option (Nat × Nat))
  | next (offset : Nat)

/-- The loop over the segments.  Offsets are less than `2 ^ 64` and go up, so that the loop has
ended after as many rounds. -/
def walkSegments (bytes : List UInt8) (round : Nat → GpsReader Round) :
    Nat → Nat → GpsReader (Option (Nat × Nat))
  | 0, _ => Prog.halt .fault
  | rounds + 1, offset => do
      let inFile ← covers bytes offset
      if inFile then do
        let outcome ← round offset
        match outcome with
        | .done exif => pure exif
        | .next offset => walkSegments bytes round rounds offset
      else pure none

/-- The inner loop, over the fill bytes: the marker, and where it is. -/
def skipFill (bytes : List UInt8) : Nat → Nat → GpsReader (Nat × Nat)
  | 0, _ => Prog.halt .fault
  | rounds + 1, offset => do
      let offset ← orMalformed (checkedAdd offset 1)
      let marker ← readExactFileRange bytes offset 1
      if marker = [0xFF] then skipFill bytes rounds offset else pure (offset, beNat marker)

def exifSignature : List UInt8 := Heif.ascii "Exif" ++ [0, 0]

/-- A segment with a length. -/
def jpegSegment (bytes : List UInt8) (markerCode offset : Nat) : GpsReader Round := do
  let length ← readExactFileRange bytes offset 2
  check (2 ≤ beNat length)
  let dataStart ← orMalformed (checkedAdd offset 2)
  let dataLen ← plainSub (beNat length) 2
  let next ← orMalformed (checkedAdd dataStart dataLen)
  -- that the segment ends in the file is asked as an empty range
  let _ ← range bytes .malformed next 0
  if markerCode = 0xE1 ∧ 6 ≤ dataLen then do
    let signature ← readExactFileRange bytes dataStart 6
    if signature = exifSignature then do
      let base ← plainAdd dataStart 6
      let len ← plainSub dataLen 6
      pure (.done (some (base, len)))
    else pure (.next next)
  else pure (.next next)

def jpegRound (bytes : List UInt8) (offset : Nat) : GpsReader Round := do
  let marker ← readExactFileRange bytes offset 1
  check (marker = [0xFF])
  let (offset, markerCode) ← skipFill bytes (2 ^ 64) offset
  let offset ← orMalformed (checkedAdd offset 1)
  if markerCode = 0xD9 ∨ markerCode = 0xDA then pure (.done none)
  else if markerCode = 0x01 ∨ (0xD0 ≤ markerCode ∧ markerCode ≤ 0xD7) then pure (.next offset)
  else jpegSegment bytes markerCode offset

def pngRound (bytes : List UInt8) (offset : Nat) : GpsReader Round := do
  let header ← readExactFileRange bytes offset 8
  let dataLen := beNat (slice header 0 4)
  let dataStart ← orMalformed (checkedAdd offset 8)
  let stop ← orMalformed (checkedAdd dataStart dataLen)
  let next ← orMalformed (checkedAdd stop 4)
  let _ ← range bytes .malformed next 0
  if slice header 4 8 = Heif.ascii "eXIf" then pure (.done (some (dataStart, dataLen)))
  else if slice header 4 8 = Heif.ascii "IEND" then pure (.done none)
  else pure (.next next)

inductive Container where
  | jpeg
  | png

/-- Where the Exif data is. -/
def exifOf (container : Container) (bytes : List UInt8) : GpsReader (Option (Nat × Nat)) :=
  match container with
  | .jpeg => walkSegments bytes (jpegRound bytes) (2 ^ 64) 2
  | .png => walkSegments bytes (pngRound bytes) (2 ^ 64) 8

/-! ## the TIFF reader -/

structure TiffGpsReader where
  source : List UInt8
  base : Nat
  len : Nat

namespace TiffGpsReader

def readExactAt (reader : TiffGpsReader) (offset n : Nat) : GpsReader (List UInt8) := do
  let stop ← orMalformed (checkedAdd offset n)
  check (stop ≤ reader.len)
  let absolute ← orMalformed (checkedAdd reader.base offset)
  range reader.source .io absolute n

def readIfdEntry (reader : TiffGpsReader) (ifdOffset index : Nat) : GpsReader (List UInt8) := do
  let entries ← orMalformed (checkedAdd ifdOffset 2)
  let entryOffset ← orMalformed ((checkedMul index 12).bind (checkedAdd entries))
  reader.readExactAt entryOffset 12

end TiffGpsReader

def field (endian : TiffEndian) (entry : List UInt8) (start stop : Nat) : Nat :=
  tiffUint endian (slice entry start stop)

def TiffGpsReader.entryValue (reader : TiffGpsReader) (endian : TiffEndian) (entry : List UInt8)
    (n expectedType expectedCount : Nat) : GpsReader (Option (List UInt8)) :=
  if field endian entry 2 4 ≠ expectedType ∨ field endian entry 4 8 ≠ expectedCount then pure none
  else if n ≤ 4 then some <$> orMalformed (slice? entry 8 (8 + n))
  else some <$> reader.readExactAt (field endian entry 8 12) n

def readTiffIfdCount (reader : TiffGpsReader) (endian : TiffEndian) (offset : Nat) :
    GpsReader Nat := tiffUint endian <$> reader.readExactAt offset 2

def tiffRational (endian : TiffEndian) (value : List UInt8) : Option (Nat × Nat) :=
  if field endian value 4 8 ≠ 0 then some (field endian value 0 4, field endian value 4 8) else none

def tiffRationalTriplet (endian : TiffEndian) (value : List UInt8) : Option (List (Nat × Nat)) :=
  [0, 8, 16].mapM fun start => tiffRational endian (slice value start (start + 8))

/-- The text of a value, without the NULs and the white space around it. -/
def textOf (value : List UInt8) : Option String :=
  (String.fromUTF8? ⟨value.toArray⟩).map fun text =>
    trim (String.ofList (dropEndWhile (· = '\x00') (text.toList.dropWhile (· = '\x00'))))

def speedUnits : List String := ["K", "M", "N"]

structure GpsFields where
  date : Option String := none
  time : Option (List (Nat × Nat)) := none
  speed : Option (Nat × Nat) := none
  speedRef : Option String := none
  horizontalPositioningError : Option (Nat × Nat) := none

/-- The first IFD that the entries point to. -/
def findGpsIfd (reader : TiffGpsReader) (endian : TiffEndian) (ifdOffset : Nat) :
    List Nat → GpsReader (Option Nat)
  | [] => pure none
  | index :: rest => do
      let entry ← reader.readIfdEntry ifdOffset index
      if field endian entry 0 2 = 0x8825 ∧ field endian entry 2 4 = 4 ∧ field endian entry 4 8 = 1
      then pure (some (field endian entry 8 12))
      else findGpsIfd reader endian ifdOffset rest

/-- A field that is not there yet is set by the value, if there is one. -/
def fillIn (present : Bool) (value : GpsReader (Option (List UInt8))) (fields : GpsFields)
    (set : List UInt8 → GpsFields) : GpsReader GpsFields :=
  if present then pure fields else (fun found => (found.map set).getD fields) <$> value

def readGpsEntry (reader : TiffGpsReader) (endian : TiffEndian) (fields : GpsFields)
    (entry : List UInt8) : GpsReader GpsFields :=
  match field endian entry 0 2 with
  | 0x0007 => fillIn fields.time.isSome (reader.entryValue endian entry 24 5 3) fields fun value =>
      { fields with time := tiffRationalTriplet endian value }
  | 0x000C =>
      fillIn fields.speedRef.isSome (reader.entryValue endian entry 2 2 2) fields fun value =>
      { fields with
        speedRef := ((textOf value).map (·.map Char.toUpper)).filter (· ∈ speedUnits) }
  | 0x000D => fillIn fields.speed.isSome (reader.entryValue endian entry 8 5 1) fields fun value =>
      { fields with speed := tiffRational endian value }
  | 0x001D => fillIn fields.date.isSome (reader.entryValue endian entry 11 2 11) fields fun value =>
      { fields with date := textOf value }
  | 0x001F =>
      fillIn fields.horizontalPositioningError.isSome (reader.entryValue endian entry 8 5 1) fields
        fun value => { fields with horizontalPositioningError := tiffRational endian value }
  | _ => pure fields

def readGpsEntries (reader : TiffGpsReader) (endian : TiffEndian) (ifdOffset : Nat) :
    GpsFields → List Nat → GpsReader GpsFields
  | fields, [] => pure fields
  | fields, index :: rest => do
      let entry ← reader.readIfdEntry ifdOffset index
      let fields ← readGpsEntry reader endian fields entry
      readGpsEntries reader endian ifdOffset fields rest

structure SourceGpsMetadata where
  datetime : Option String := none
  speed : Option (Nat × Nat) := none
  speedRef : Option String := none
  horizontalPositioningError : Option (Nat × Nat) := none

/-- The metadata of the fields; the time is put together by a function of its own. -/
def metadataOf (datetimeValues : String → List (Nat × Nat) → Option String) (fields : GpsFields) :
    SourceGpsMetadata :=
  let speed := if fields.speedRef.isSome then fields.speed else none
  { datetime := fields.date.bind fun date => fields.time.bind (datetimeValues date)
    speed
    speedRef := if speed.isSome then fields.speedRef else none
    horizontalPositioningError := fields.horizontalPositioningError }

def endianOf (mark : List UInt8) : Option TiffEndian :=
  if mark = Heif.ascii "II" then some .little
  else if mark = Heif.ascii "MM" then some .big
  else none

def readTiffSourceGps (datetimeValues : String → List (Nat × Nat) → Option String)
    (reader : TiffGpsReader) : GpsReader SourceGpsMetadata := do
  let header ← reader.readExactAt 0 8
  let endian ← orMalformed (endianOf (slice header 0 2))
  check (field endian header 2 4 = 42)
  let ifd0Offset := field endian header 4 8
  let ifd0Count ← readTiffIfdCount reader endian ifd0Offset
  let gpsIfdOffset ← findGpsIfd reader endian ifd0Offset (List.range ifd0Count)
  match gpsIfdOffset with
  | none => pure {}
  | some gpsIfdOffset => do
      let gpsCount ← readTiffIfdCount reader endian gpsIfdOffset
      let fields ← readGpsEntries reader endian gpsIfdOffset {} (List.range gpsCount)
      pure (metadataOf datetimeValues fields)

def readExifGps (datetimeValues : String → List (Nat × Nat) → Option String)
    (bytes : List UInt8) : Option (Nat × Nat) → GpsReader SourceGpsMetadata
  | none => pure {}
  | some (base, len) => readTiffSourceGps datetimeValues ⟨bytes, base, len⟩

/-- `read_jpeg_source_gps`, or `read_png_source_gps`. -/
def readSourceGps (datetimeValues : String → List (Nat × Nat) → Option String)
    (container : Container) (bytes : List UInt8) : GpsReader SourceGpsMetadata := do
  let exif ← exifOf container bytes
  readExifGps datetimeValues bytes exif

/-! ## what a walk asks for -/

variable {bytes bytes' : List UInt8} {reads : Nat × Nat → Prop}

/-- A program that fails only for what is in the file. -/
abbrev Sound {α : Type} (bytes bytes' : List UInt8) (reads : Nat × Nat → Prop)
    (returns : α → Prop) (x x' : GpsReader α) : Prop :=
  Local bytes bytes' reads (· = .malformed) returns x x'

theorem orElse_sound {α : Type} {e : TiffGpsError} {o : Option α} (h : o = none → e = .malformed) :
    Sound bytes bytes' reads (fun a => o = some a) (orElse e o) (orElse e o) := by
  cases o with
  | none => exact .halt (h rfl)
  | some a => exact .pure rfl

theorem orMalformed_sound {α : Type} {o : Option α} :
    Sound bytes bytes' reads (fun a => o = some a) (orMalformed o) (orMalformed o) :=
  orElse_sound fun _ => rfl

theorem check_sound {p : Prop} [Decidable p] :
    Sound bytes bytes' reads (fun _ => p) (check p) (check p) :=
  orMalformed_sound.mono fun _ h => by simpa using h

theorem readExactFileRange_sound {offset n : Nat} :
    Sound bytes bytes' (fun _ => True) (fun _ => offset + n ≤ bytes.length)
      (readExactFileRange bytes offset n) (readExactFileRange bytes' offset n) :=
  .bind orMalformed_sound fun _ _ => .range trivial fun _ => rfl

def Exif.InFile (bytes : List UInt8) (exif : Option (Nat × Nat)) : Prop :=
  ∀ e ∈ exif, e.1 + e.2 ≤ bytes.length

/-- The offset goes up, and the data that is found is in the file. -/
def Round.Onward (bytes : List UInt8) (offset : Nat) : Round → Prop
  | .done exif => Exif.InFile bytes exif
  | .next stop => offset < stop ∧ stop < 2 ^ 64

theorem walkSegments_sound {round round' : Nat → GpsReader Round}
    (hround : ∀ offset < 2 ^ 64, Sound bytes bytes' (fun _ => True) (Round.Onward bytes offset)
      (round offset) (round' offset))
    {rounds offset : Nat} (hoffset : offset < 2 ^ 64) (hrounds : 2 ^ 64 ≤ offset + rounds) :
    Sound bytes bytes' (fun _ => True) (Exif.InFile bytes)
      (walkSegments bytes round rounds offset) (walkSegments bytes' round' rounds offset) := by
  induction rounds generalizing offset with
  | zero => omega
  | succ rounds ih =>
      refine .bind (.covers trivial) fun inFile _ => ?_
      split
      · refine .bind (hround offset hoffset) fun outcome honward => ?_
        cases outcome with
        | done exif => exact .pure honward
        | next next => exact ih honward.2 (by have := honward.1; omega)
      · exact .pure fun _ h => nomatch h

theorem skipFill_sound {rounds offset : Nat} (hoffset : offset < 2 ^ 64)
    (hrounds : 2 ^ 64 ≤ offset + rounds) :
    Sound bytes bytes' (fun _ => True) (fun found => offset < found.1)
      (skipFill bytes rounds offset) (skipFill bytes' rounds offset) := by
  induction rounds generalizing offset with
  | zero => omega
  | succ rounds ih =>
      refine .bind orMalformed_sound fun next hnext => ?_
      obtain ⟨hfits, rfl⟩ := checkedAdd_eq_some.mp hnext
      refine .bind readExactFileRange_sound fun marker _ => ?_
      split
      · exact (ih hfits (by omega)).mono fun found h => Nat.lt_of_succ_lt h
      · exact .pure (Nat.lt_succ_self _)

theorem jpegSegment_sound {markerCode offset : Nat} :
    Sound bytes bytes' (fun _ => True) (Round.Onward bytes offset)
      (jpegSegment bytes markerCode offset) (jpegSegment bytes' markerCode offset) := by
  refine .bind readExactFileRange_sound fun length _ => .bind check_sound fun _ htwo =>
    .bind orMalformed_sound fun dataStart hstart =>
    .bind (orElse_sound fun h => by simp [htwo] at h) fun dataLen _ =>
    .bind orMalformed_sound fun next hnext =>
    .bind (.range trivial fun _ => rfl) fun _ hfile => ?_
  obtain ⟨-, rfl⟩ := checkedAdd_eq_some.mp hstart
  obtain ⟨hfits, rfl⟩ := checkedAdd_eq_some.mp hnext
  have honward : Round.Onward bytes offset (.next (offset + 2 + dataLen)) :=
    ⟨by omega, hfits⟩
  split
  · next hsix =>
      refine .bind readExactFileRange_sound fun signature _ => ?_
      split
      · have hadd : checkedAdd (offset + 2) 6 = some (offset + 2 + 6) :=
          checkedAdd_eq_some.mpr ⟨by omega, rfl⟩
        refine .bind (orElse_sound fun h => by simp [hadd] at h) fun base hbase =>
          .bind (orElse_sound fun h => by simp [hsix.2] at h) fun len hlen => .pure fun e he => ?_
        cases he
        cases hadd.symm.trans hbase
        rw [if_pos hsix.2] at hlen
        cases hlen
        omega
      · exact .pure honward
  · exact .pure honward

theorem jpegRound_sound (offset : Nat) (hoffset : offset < 2 ^ 64) :
    Sound bytes bytes' (fun _ => True) (Round.Onward bytes offset) (jpegRound bytes offset)
      (jpegRound bytes' offset) := by
  refine .bind readExactFileRange_sound fun marker _ => .bind check_sound fun _ _ =>
    .bind (skipFill_sound hoffset (Nat.le_add_left _ _)) fun found hfound =>
    .bind orMalformed_sound fun next hnext => ?_
  obtain ⟨hfits, rfl⟩ := checkedAdd_eq_some.mp hnext
  have hup : offset < found.1 + 1 := Nat.lt_succ_of_lt hfound
  split
  · exact .pure fun _ h => nomatch h
  · split
    · exact .pure ⟨hup, hfits⟩
    · refine jpegSegment_sound.mono fun outcome honward => ?_
      cases outcome with
      | done exif => exact honward
      | next next => exact ⟨Nat.lt_trans hup honward.1, honward.2⟩

theorem pngRound_sound (offset : Nat) :
    Sound bytes bytes' (fun _ => True) (Round.Onward bytes offset) (pngRound bytes offset)
      (pngRound bytes' offset) := by
  refine .bind readExactFileRange_sound fun header _ => .bind orMalformed_sound
    fun dataStart hstart => .bind orMalformed_sound fun stop hstop => .bind orMalformed_sound
    fun next hnext => .bind (.range trivial fun _ => rfl) fun _ hfile => ?_
  obtain ⟨-, rfl⟩ := checkedAdd_eq_some.mp hstart
  obtain ⟨-, rfl⟩ := checkedAdd_eq_some.mp hstop
  obtain ⟨hfits, rfl⟩ := checkedAdd_eq_some.mp hnext
  split
  · refine .pure fun e he => ?_
    cases he
    omega
  · split
    · exact .pure fun _ h => nomatch h
    · exact .pure ⟨by omega, hfits⟩

theorem exifOf_sound (container : Container) :
    Sound bytes bytes' (fun _ => True) (Exif.InFile bytes) (exifOf container bytes)
      (exifOf container bytes') := by
  cases container with
  | jpeg => exact walkSegments_sound jpegRound_sound (by decide) (by decide)
  | png => exact walkSegments_sound (fun offset _ => pngRound_sound offset) (by decide) (by decide)

/-! ## what the TIFF reader asks for -/

section Tiff

variable {base len : Nat} {endian : TiffEndian} {entry : List UInt8} {fields : GpsFields}

/-- What a program over the reader asks for is inside the Exif data. -/
abbrev Confined {α : Type} (bytes bytes' : List UInt8) (base len : Nat) (returns : α → Prop)
    (x : TiffGpsReader → GpsReader α) : Prop :=
  Sound bytes bytes' (Inside (base, len)) returns (x ⟨bytes, base, len⟩) (x ⟨bytes', base, len⟩)

variable (hfile : base + len ≤ bytes.length)

include hfile

theorem readExactAt_confined (offset n : Nat) :
    Confined bytes bytes' base len (fun _ => True) (·.readExactAt offset n) := by
  refine .bind orMalformed_sound fun stop hstop => .bind check_sound fun _ hlen =>
    .bind orMalformed_sound fun absolute habsolute => ?_
  obtain ⟨-, rfl⟩ := checkedAdd_eq_some.mp hstop
  obtain ⟨-, rfl⟩ := checkedAdd_eq_some.mp habsolute
  dsimp only at hlen ⊢
  have hinside : Inside (base, len) (base + offset, n) :=
    ⟨Nat.le_add_right _ _, by dsimp only; omega⟩
  refine (Local.range hinside fun hmissing => ?_).mono fun _ _ => trivial
  rw [slice?_of_le (Nat.le_add_right _ _) (by omega)] at hmissing
  cases hmissing

theorem readIfdEntry_confined (ifdOffset index : Nat) :
    Confined bytes bytes' base len (fun _ => True) (·.readIfdEntry ifdOffset index) :=
  .bind orMalformed_sound fun _ _ => .bind orMalformed_sound fun _ _ =>
    readExactAt_confined hfile _ _

theorem entryValue_confined (n expectedType expectedCount : Nat) :
    Confined bytes bytes' base len (fun _ => True)
      (·.entryValue endian entry n expectedType expectedCount) := by
  unfold Confined TiffGpsReader.entryValue
  split
  · exact .pure trivial
  · split
    · exact .map orMalformed_sound fun _ _ => trivial
    · exact .map (readExactAt_confined hfile _ _) fun _ _ => trivial

theorem findGpsIfd_confined (ifdOffset : Nat) (indexes : List Nat) :
    Confined bytes bytes' base len (fun _ => True)
      (findGpsIfd · endian ifdOffset indexes) := by
  induction indexes with
  | nil => exact .pure trivial
  | cons index rest ih =>
      refine .bind (readIfdEntry_confined hfile ifdOffset index) fun entry _ => ?_
      split
      · exact .pure trivial
      · exact ih

/-- The unit, if there is one, is one of the three. -/
def GpsFields.KnownUnit (fields : GpsFields) : Prop := ∀ unit ∈ fields.speedRef, unit ∈ speedUnits

omit hfile in
theorem fillIn_sound {present : Bool} {value value' : GpsReader (Option (List UInt8))}
    {set : List UInt8 → GpsFields} (hfields : fields.KnownUnit)
    (hvalue : Sound bytes bytes' reads (fun _ => True) value value')
    (hset : ∀ v, (set v).KnownUnit) :
    Sound bytes bytes' reads GpsFields.KnownUnit (fillIn present value fields set)
      (fillIn present value' fields set) := by
  unfold fillIn
  split
  · exact .pure hfields
  · refine .map hvalue fun found _ => ?_
    cases found with
    | none => exact hfields
    | some v => exact hset v

theorem readGpsEntry_confined (hfields : fields.KnownUnit) :
    Confined bytes bytes' base len GpsFields.KnownUnit (readGpsEntry · endian fields entry) := by
  have hvalue := @entryValue_confined bytes bytes' base len endian entry hfile
  unfold Confined readGpsEntry
  split
  case h_2 =>
    refine fillIn_sound hfields (hvalue 2 2 2) fun v unit hunit => ?_
    exact of_decide_eq_true (Option.mem_filter_iff.mp hunit).2
  case h_6 => exact .pure hfields
  all_goals exact fillIn_sound hfields (hvalue _ _ _) fun _ => hfields

theorem readGpsEntries_confined (ifdOffset : Nat) (hfields : fields.KnownUnit)
    (indexes : List Nat) :
    Confined bytes bytes' base len GpsFields.KnownUnit
      (readGpsEntries · endian ifdOffset fields indexes) := by
  induction indexes generalizing fields with
  | nil => exact .pure hfields
  | cons index rest ih =>
      exact .bind (readIfdEntry_confined hfile ifdOffset index) fun entry _ =>
        .bind (readGpsEntry_confined hfile hfields) fun fields hfields => ih hfields

/-- A speed has its unit. -/
def SourceGpsMetadata.HasUnit (gps : SourceGpsMetadata) : Prop :=
  gps.speed.isSome → ∃ unit ∈ speedUnits, gps.speedRef = some unit

omit hfile in
theorem hasUnit_metadataOf {datetimeValues : String → List (Nat × Nat) → Option String}
    (h : fields.KnownUnit) : (metadataOf datetimeValues fields).HasUnit := by
  intro hspeed
  cases hunit : fields.speedRef with
  | none => simp [metadataOf, hunit] at hspeed
  | some unit =>
      refine ⟨unit, h unit hunit, ?_⟩
      simp_all [metadataOf]

theorem readTiffSourceGps_confined
    (datetimeValues : String → List (Nat × Nat) → Option String) :
    Confined bytes bytes' base len SourceGpsMetadata.HasUnit
      (readTiffSourceGps datetimeValues) := by
  have hcount (endian : TiffEndian) (offset : Nat) : Confined bytes bytes' base len
      (fun _ => True) (readTiffIfdCount · endian offset) :=
    .map (readExactAt_confined hfile offset 2) fun _ _ => trivial
  refine .bind (readExactAt_confined hfile 0 8) fun header _ => .bind orMalformed_sound
    fun endian _ => .bind check_sound fun _ _ => .bind (hcount _ _) fun count _ =>
    .bind (findGpsIfd_confined hfile _ _) fun gpsIfdOffset _ => ?_
  cases gpsIfdOffset with
  | none => exact .pure nofun
  | some gpsIfdOffset =>
      exact .bind (hcount _ _) fun gpsCount _ =>
        .bind (readGpsEntries_confined hfile _ (by simp [GpsFields.KnownUnit]) _)
          fun fields hunit =>
        .pure (hasUnit_metadataOf hunit)

end Tiff

theorem readExifGps_sound (datetimeValues : String → List (Nat × Nat) → Option String)
    {exif : Option (Nat × Nat)} (hfile : Exif.InFile bytes exif) :
    Sound bytes bytes' (fun r => ∃ e, exif = some e ∧ Inside e r) SourceGpsMetadata.HasUnit
      (readExifGps datetimeValues bytes exif) (readExifGps datetimeValues bytes' exif) := by
  cases exif with
  | none => exact .pure nofun
  | some e =>
      intro log
      obtain ⟨hgrows, hreads, hends, hsame⟩ :=
        @readTiffSourceGps_confined bytes bytes' _ _ (hfile e rfl) datetimeValues log
      exact ⟨hgrows, fun r hr => (hreads r hr).imp_right fun h => ⟨e, rfl, h⟩, hends, hsame⟩

/-- **The GPS metadata are what the Exif data say.**  A reader ends, and fails for nothing but a
malformed file; and a speed has its unit.  Of a TIFF file it asks nothing but what is in the file;
of a container, the headers and what is inside the Exif data, and on a file that agrees in these
it does the same. -/
theorem readSourceGps_local (datetimeValues : String → List (Nat × Nat) → Option String)
    (container : Container) (bytes : List UInt8) :
    let found := exifOf container bytes []
    let run := readSourceGps datetimeValues container bytes []
    let bare := readTiffSourceGps datetimeValues ⟨bytes, 0, bytes.length⟩ []
    (Ends (· = .malformed) SourceGpsMetadata.HasUnit bare.1 ∧
      ∀ r ∈ bare.2, Inside (0, bytes.length) r) ∧
    Ends (· = .malformed) SourceGpsMetadata.HasUnit run.1 ∧
    (∀ exif, found.1 = .ok (some exif) → exif.1 + exif.2 ≤ bytes.length) ∧
    (∀ r ∈ run.2, r ∈ found.2 ∨ ∃ exif, found.1 = .ok (some exif) ∧ Inside exif r) ∧
    ∀ bytes', Agree bytes bytes' found.2 →
      (∀ exif, found.1 = .ok (some exif) → Agree bytes bytes' [exif]) →
      (readSourceGps datetimeValues container bytes' []).1 = run.1 := by
  intro found run bare
  have hbare := @readTiffSourceGps_confined bytes bytes 0 bytes.length
    (Nat.le_of_eq (Nat.zero_add _)) datetimeValues []
  refine ⟨⟨hbare.2.2.1, fun r hr => (hbare.2.1 r hr).resolve_left List.not_mem_nil⟩, ?_⟩
  have hexif (bytes' : List UInt8) := @exifOf_sound bytes bytes' container []
  have hends := (hexif bytes).2.2.1
  cases hfound : found with
  | mk result headers =>
      rw [show exifOf container bytes [] = (result, headers) from hfound] at hexif hends
      cases result with
      | error e =>
          have hrun (bs : List UInt8) (h : exifOf container bs [] = (.error e, headers)) :
              readSourceGps datetimeValues container bs [] = (.error e, headers) :=
            Prog.run_bind_error h
          simp only [run, hrun bytes hfound]
          exact ⟨hends, nofun, fun r hr => .inl hr, fun bytes' hagree _ => by
            rw [hrun bytes' ((hexif bytes').2.2.2 hagree)]⟩
      | ok exif =>
          have hrun (bs : List UInt8) (h : exifOf container bs [] = (.ok exif, headers)) :
              readSourceGps datetimeValues container bs [] =
                readExifGps datetimeValues bs exif headers := Prog.run_bind_ok h
          have htiff (bytes' : List UInt8) :=
            @readExifGps_sound bytes bytes' datetimeValues exif hends headers
          simp only [run, hrun bytes hfound, Except.ok.injEq]
          refine ⟨(htiff bytes).2.2.1, fun e he => hends e he, (htiff bytes).2.1,
            fun bytes' hagree hinside => ?_⟩
          rw [hrun bytes' ((hexif bytes').2.2.2 hagree), (htiff bytes').2.2.2 fun r hr => ?_]
          rcases (htiff bytes).2.1 r hr with hheader | ⟨e, he, hr⟩
          · exact hagree r hheader
          · exact (hinside e he).inside (hends e he) hr r (List.mem_singleton_self r)

end Kei.Download
