import Kei.Changes.Feed

/-!
# Kei.Changes.Hydration

The stream of an album whose members can be in other zones.

The base stream has the members of the album's own zone.  If it has fewer than
the count says, the relations of the album are read, and the members that are
missing are looked for in the feed of one source after the other.
-/

namespace Kei.Changes

open PhotoStream (Json)

/-! ## scanning a zone -/

section
variable {σ : Type} (onRecord : σ → Record → σ × Bool)

/-- The records of a page; `false` stops the scan. -/
def scanRecords : σ → List Record → σ × Bool
  | state, [] => (state, true)
  | state, record :: records =>
      match onRecord state record with
      | (state, false) => (state, false)
      | (state, true) => scanRecords state records

def scanChangesZone : σ → Feed → Except String σ
  | _, .failed error => .error error
  | state, .last records _ => .ok (scanRecords onRecord state records).1
  | state, .more records _ rest =>
      match scanRecords onRecord state records with
      | (state, false) => .ok state
      | (state, true) => scanChangesZone state rest

end

/-- The item of a relation of the container that is not deleted. -/
def relationItem (containerId : String) (record : Record) : Option String :=
  if record.recordType ≠ "CPLContainerRelation" then none
  else if record.deleted = some true then none
  else if fieldValueStr record.fields "containerId" ≠ some containerId then none
  else fieldValueStr record.fields "itemId"

def albumRelationItemIds (containerId : String) (feed : Feed) : Except String (List String) :=
  scanChangesZone (fun ids record =>
    (match relationItem containerId record with
      | some itemId => ids.insert itemId
      | none => ids, true)) [] feed

/-! ## matching assets -/

/-- What is missing still, and the assets that were found. -/
structure Matching where
  missing : List String
  matched : List PhotoAsset

def Matching.takeEvent (zoneName : String) (m : Matching) (event : ChangeEvent) : Matching :=
  match event.asset with
  | none => m
  | some asset =>
      if asset.assetRecordName ∈ m.missing then
        ⟨m.missing.erase asset.assetRecordName,
          m.matched ++ [{ asset with sourceZone := some zoneName }]⟩
      else m

/-- A zone in which members are looked for, with what it answers. -/
structure Source where
  zoneName : String
  feed : Feed

def Source.matchRecord (host : Host) (source : Source) (state : DeltaRecordBuffer × Matching)
    (record : Record) : (DeltaRecordBuffer × Matching) × Bool :=
  let (buffer, events) := state.1.processRecords host [record]
  let m := events.foldl (Matching.takeEvent source.zoneName) state.2
  ((buffer, m), !m.missing.isEmpty)

/-- The assets of a source that are missing, and what is missing after it. -/
def Source.matchingAssetsFromChanges (host : Host) (drain : DrainOrder) (source : Source)
    (missing : List String) : Except String Matching :=
  (scanChangesZone (source.matchRecord host) (.new, ⟨missing, []⟩) source.feed).map
    (fun (buffer, m) => (buffer.flush drain).foldl (Matching.takeEvent source.zoneName) m)

/-! ## the stream -/

/-- An album stream with its base stream, and what the zones answer. -/
structure CrossZoneStream where
  containerId : Option String
  limit : Option Nat
  totalCount : Option Nat
  base : List (Except String PhotoAsset)
  /-- The token that the base stream gives at its end. -/
  baseToken : Option String
  /-- The feed of the album's own zone, for its relations. -/
  relations : Feed
  sources : List Source

/-- What is sent, and what the consumer has got of it. -/
structure Sending where
  sends : Nat
  emitted : List PhotoAsset

/-- Send an asset, unless the consumer is gone. -/
def Sending.send (received : Nat → Bool) (out : Sending) (asset : PhotoAsset) : Option Sending :=
  if received out.sends then some ⟨out.sends + 1, out.emitted ++ [asset]⟩ else none

def Sending.sendAll (received : Nat → Bool) : Sending → List PhotoAsset → Sending × Bool
  | out, [] => (out, true)
  | out, asset :: rest =>
      match out.send received asset with
      | none => (out, false)
      | some out => Sending.sendAll received out rest

/-- What the base stream has given. -/
structure BaseSeen where
  seenAssetRecords : List String
  baseSeen : Nat
  streamError : Bool

/-- Hand the base stream on; `false` if the consumer is gone before its end. -/
def forwardBase (received : Nat → Bool) :
    Sending → BaseSeen → List (Except String PhotoAsset) → Sending × BaseSeen × Bool
  | out, seen, [] => (out, seen, true)
  | out, seen, .error _ :: rest =>
      forwardBase received { out with sends := out.sends + 1 } { seen with streamError := true }
        rest
  | out, seen, .ok asset :: rest =>
      let seen := { seen with
        seenAssetRecords := seen.seenAssetRecords.insert asset.assetRecordName,
        baseSeen := seen.baseSeen + 1 }
      match out.send received asset with
      | none => (out, seen, false)
      | some out => forwardBase received out seen rest

/-- Look through the sources; the last part is `none` if one fails or the consumer is gone. -/
def hydrateFrom (host : Host) (drain : DrainOrder) (received : Nat → Bool) :
    Sending → List String → List Source → Sending × Option (List String)
  | out, missing, [] => (out, some missing)
  | out, missing, source :: rest =>
      if missing.isEmpty then (out, some missing)
      else
        match source.matchingAssetsFromChanges host drain missing with
        | .error _ => (out, none)
        | .ok m =>
            match out.sendAll received m.matched with
            | (out, false) => (out, none)
            | (out, true) => hydrateFrom host drain received out m.missing rest

namespace CrossZoneStream

variable (stream : CrossZoneStream)

def shouldHydrate (baseSeen : Nat) : Bool :=
  stream.limit.isNone && stream.totalCount.any (fun expected => baseSeen < expected)

/-- The members that the base stream has not given, from the sources. -/
def hydrate (host : Host) (drain : DrainOrder) (received : Nat → Bool) (containerId : String)
    (out : Sending) (seen : BaseSeen) : Sending × Option String :=
  match albumRelationItemIds containerId stream.relations with
  | .error _ => (out, none)
  | .ok relationIds =>
      let missing := relationIds.filter (· ∉ seen.seenAssetRecords)
      if missing.isEmpty then (out, stream.baseToken)
      else
        match hydrateFrom host drain received out missing stream.sources with
        | (out, none) => (out, none)
        | (out, some missing) => (out, if missing.isEmpty then stream.baseToken else none)

/-- The assets that the consumer gets, and the token. -/
def photoStreamWithCrossZoneHydration (host : Host) (drain : DrainOrder) (received : Nat → Bool) :
    List PhotoAsset × Option String :=
  match stream.containerId with
  | none => ([], none)
  | some containerId =>
      match forwardBase received ⟨0, []⟩ ⟨[], 0, false⟩ stream.base with
      | (out, _, false) => (out.emitted, none)
      | (out, seen, true) =>
          if seen.streamError then (out.emitted, none)
          else if !stream.shouldHydrate seen.baseSeen then (out.emitted, stream.baseToken)
          else
            let (out, token) := stream.hydrate host drain received containerId out seen
            (out.emitted, token)

end CrossZoneStream

end Kei.Changes
