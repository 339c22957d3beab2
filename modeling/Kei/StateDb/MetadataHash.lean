import Kei.Lib.Delimited
import Std.Data.String.ToInt

/-!
# Kei.StateDb.MetadataHash

What `AssetMetadata::compute_hash` feeds the hasher.

Each field is one word with a tag, and the words are terminated by U+001F.  The
tags come in a fixed order, so a reader needs the terminators alone; but a
string of the provider may have them, and then a field may end at another one.
-/

namespace Kei.MetadataHash

open Delimited

/-- A time, with the part of the second. -/
structure Instant where
  timestamp : Int
  nanos : Nat
  deriving DecidableEq

/-- The fields that are hashed; `F` are the floating-point numbers. -/
structure AssetMetadata (F : Type) where
  isFavorite : Bool := false
  rating : Option Nat := none
  latitude : Option F := none
  longitude : Option F := none
  altitude : Option F := none
  orientation : Option Nat := none
  durationSecs : Option F := none
  timezoneOffset : Option Int := none
  width : Option Nat := none
  height : Option Nat := none
  title : Option String := none
  keywords : Option String := none
  description : Option String := none
  mediaSubtype : Option String := none
  burstId : Option String := none
  isHidden : Bool := false
  isArchived : Bool := false
  modifiedAt : Option Instant := none
  isDeleted : Bool := false
  deletedAt : Option Instant := none
  providerData : Option String := none
  deriving DecidableEq

/-- The end of a field, U+001F. -/
def unitSeparator : Char := Char.ofNat 0x1F

def hashOpt (tag : String) (value : Option String) : List Char :=
  tag.toList ++ '|' :: (match value with
    | some v => 'S' :: '|' :: v.toList
    | none => ['N'])

def hashBool (tag : String) (value : Bool) : List Char :=
  tag.toList ++ ['|', if value then '1' else '0']

section

variable {F : Type} (formatF64 : F → String)

/-- The fields as they are hashed, without their ends. -/
def hashedFields (m : AssetMetadata F) : List (List Char) :=
  [hashBool "fav" m.isFavorite, hashOpt "rat" (m.rating.map toString),
    hashOpt "lat" (m.latitude.map formatF64), hashOpt "lng" (m.longitude.map formatF64),
    hashOpt "alt" (m.altitude.map formatF64), hashOpt "ori" (m.orientation.map toString),
    hashOpt "dur" (m.durationSecs.map formatF64), hashOpt "tzo" (m.timezoneOffset.map toString),
    hashOpt "w" (m.width.map toString), hashOpt "hh" (m.height.map toString),
    hashOpt "tit" m.title, hashOpt "kw" m.keywords, hashOpt "desc" m.description,
    hashOpt "sub" m.mediaSubtype, hashOpt "bur" m.burstId, hashBool "hid" m.isHidden,
    hashBool "arc" m.isArchived, hashOpt "mod" (m.modifiedAt.map (toString ·.timestamp)),
    hashBool "del" m.isDeleted, hashOpt "delat" (m.deletedAt.map (toString ·.timestamp)),
    hashOpt "pd" m.providerData]

/-- What the hasher is fed. -/
def hashInput (m : AssetMetadata F) : ByteArray :=
  (String.ofList (terminated unitSeparator (hashedFields formatF64 m))).toUTF8

def computeHash (sha256Hex : ByteArray → String) (m : AssetMetadata F) : String :=
  sha256Hex (hashInput formatF64 m)

/-- The times at the second, as they are hashed. -/
def AssetMetadata.atSeconds (m : AssetMetadata F) : AssetMetadata F :=
  { m with
    modifiedAt := m.modifiedAt.map (fun t => ⟨t.timestamp, 0⟩)
    deletedAt := m.deletedAt.map (fun t => ⟨t.timestamp, 0⟩) }

/-! ## fields -/

theorem hashOpt_inj {tag : String} {v v' : Option String} :
    hashOpt tag v = hashOpt tag v' ↔ v = v' := by
  cases v <;> cases v' <;> simp [hashOpt, String.toList_inj]

theorem hashBool_inj {tag : String} {v v' : Bool} : hashBool tag v = hashBool tag v' ↔ v = v' := by
  cases v <;> cases v' <;> simp [hashBool]

theorem map_toString_nat_inj {v v' : Option Nat} : v.map toString = v'.map toString ↔ v = v' :=
  (Option.map_injective (fun _ _ h => Nat.repr_injective h)).eq_iff

theorem map_toString_int_inj {v v' : Option Int} : v.map toString = v'.map toString ↔ v = v' :=
  (Option.map_injective (fun _ _ h => Int.repr_injective h)).eq_iff

theorem map_timestamp_inj {t t' : Option Instant} :
    t.map (toString ·.timestamp) = t'.map (toString ·.timestamp) ↔
      t.map (fun t => (⟨t.timestamp, 0⟩ : Instant)) =
        t'.map (fun t => (⟨t.timestamp, 0⟩ : Instant)) := by
  cases t <;> cases t' <;> simp

/-- The fields are hashed alike just if they are the same, with the times at the second. -/
theorem hashedFields_inj (hformat : Function.Injective formatF64) {m m' : AssetMetadata F} :
    hashedFields formatF64 m = hashedFields formatF64 m' ↔ m.atSeconds = m'.atSeconds := by
  have hfloat {v v' : Option F} : v.map formatF64 = v'.map formatF64 ↔ v = v' :=
    (Option.map_injective hformat).eq_iff
  simp only [hashedFields, List.cons.injEq, hashOpt_inj, hashBool_inj, map_toString_nat_inj,
    map_toString_int_inj, map_timestamp_inj, hfloat, AssetMetadata.atSeconds,
    AssetMetadata.mk.injEq, and_true]

/-- Equal inputs have equal fields, or one of the two has a field that goes on with a separator
and the fields that come after it in the other. -/
theorem hashInput_eq_iff (hformat : Function.Injective formatF64) {m m' : AssetMetadata F} :
    hashInput formatF64 m = hashInput formatF64 m' ↔ m.atSeconds = m'.atSeconds ∨
      Shifted unitSeparator (hashedFields formatF64 m) (hashedFields formatF64 m') ∨
        Shifted unitSeparator (hashedFields formatF64 m') (hashedFields formatF64 m) := by
  have hbytes : hashInput formatF64 m = hashInput formatF64 m' ↔
      terminated unitSeparator (hashedFields formatF64 m) =
        terminated unitSeparator (hashedFields formatF64 m') := by
    unfold hashInput
    rw [String.toUTF8_eq_toByteArray, String.toUTF8_eq_toByteArray, String.toByteArray_inj,
      String.ofList_inj]
  have hlen : (hashedFields formatF64 m).length = (hashedFields formatF64 m').length := rfl
  rw [hbytes, terminated_eq_iff hlen, hashedFields_inj formatF64 hformat]

/--
**Records with the same input are the same** if and only if in neither a field
goes on with a separator and the fields that come after it in the other, and
they do not differ within a second alone.
-/
theorem hashInput_determines_iff (hformat : Function.Injective formatF64)
    (m m' : AssetMetadata F) : (hashInput formatF64 m = hashInput formatF64 m' → m = m') ↔
      ¬ Shifted unitSeparator (hashedFields formatF64 m) (hashedFields formatF64 m') ∧
        ¬ Shifted unitSeparator (hashedFields formatF64 m') (hashedFields formatF64 m) ∧
          (m.atSeconds = m'.atSeconds → m = m') := by
  rw [hashInput_eq_iff formatF64 hformat]
  constructor
  · intro h
    refine ⟨fun hshift => hshift.ne ?_, fun hshift => hshift.ne ?_, fun hsame => h (.inl hsame)⟩
    · rw [h (.inr (.inl hshift))]
    · rw [h (.inr (.inr hshift))]
  · intro ⟨hnot, hnot', hseconds⟩ h
    obtain hsame | hshift | hshift := h
    · exact hseconds hsame
    · exact absurd hshift hnot
    · exact absurd hshift hnot'

end

/-! ## two records with one hash -/

/-- Whole numbers, with nine decimals. -/
def formatWhole (n : Int) : String := toString n ++ ".000000000"

theorem formatWhole_injective : Function.Injective formatWhole := by
  intro n n' h
  unfold formatWhole at h
  exact Int.repr_injective (String.append_left_inj _ |>.mp h)

/-- A keyword text with a separator and the tag of the description. -/
def longKeywords : AssetMetadata Int := { keywords := some "y\x1fdesc|S|z" }

/-- The same with a description. -/
def withDescription : AssetMetadata Int :=
  { keywords := some "y", description := some "z\x1fdesc|N" }

/-- **The two records have the same hash**, whatever the hash function is. -/
theorem keywords_become_description :
    ¬ (hashInput formatWhole longKeywords = hashInput formatWhole withDescription →
      longKeywords = withDescription) := by
  intro h
  exact absurd (h (by decide +kernel)) (by decide)

/-- Two titles without separators. -/
theorem hashInput_determines_title :
    (hashInput formatWhole { title := some "a" } = hashInput formatWhole { title := some "b" } →
      ({ title := some "a" } : AssetMetadata Int) = { title := some "b" }) ↔
      ¬ Shifted unitSeparator (hashedFields formatWhole { title := some "a" })
          (hashedFields formatWhole { title := some "b" }) ∧
        ¬ Shifted unitSeparator (hashedFields formatWhole { title := some "b" })
            (hashedFields formatWhole { title := some "a" }) ∧
          (({ title := some "a" } : AssetMetadata Int).atSeconds =
            ({ title := some "b" } : AssetMetadata Int).atSeconds →
              ({ title := some "a" } : AssetMetadata Int) = { title := some "b" }) :=
  hashInput_determines_iff formatWhole formatWhole_injective _ _

end Kei.MetadataHash
