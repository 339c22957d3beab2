import Kei.Changes
import Kei.Lib.Strongest

/-!
# Kei.Library.Lookups

Lookups of records by their names.

A request asks for a master record, and often for an asset record, on behalf of
a state id; requests go out in batches.  Each request resolves to something by
the reply to its batch, and of the resolutions of one state id the one with the
strongest evidence is kept.
-/

namespace Kei.Lookup

open Str PhotoStream
open Changes (PhotoAsset MalformedRequiredAssetField RequiredAssetFields)

/-! ## requests -/

abbrev ProviderRecordId := String

inductive RecordLookupTarget where
  | master
  | asset
  deriving DecidableEq

structure RecordLookupRequest where
  stateId : ProviderRecordId
  masterRecordName : ProviderRecordId
  assetRecordName : Option ProviderRecordId
  target : RecordLookupTarget
  deriving DecidableEq

namespace RecordLookupRequest

def paired (stateId masterRecordName assetRecordName : ProviderRecordId) : RecordLookupRequest :=
  ⟨stateId, masterRecordName, some assetRecordName, .master⟩

def masterOnly (stateId masterRecordName : ProviderRecordId) : RecordLookupRequest :=
  ⟨stateId, masterRecordName, none, .master⟩

def assetOnly (assetRecordName : ProviderRecordId) : RecordLookupRequest :=
  ⟨assetRecordName, assetRecordName, none, .asset⟩

/-- The records that a request is about. -/
def recordNames (request : RecordLookupRequest) : List String :=
  request.masterRecordName :: request.assetRecordName.toList

end RecordLookupRequest

/-! ## replies -/

inductive ProviderLookupError where
  | authentication (status : Nat) (message : String)
  | rateLimited (status : Nat) (message : String)
  | request (message : String)
  | malformed (message : String)
  deriving DecidableEq

/-- The error of a request, with its status if it is one of HTTP. -/
structure PostError where
  message : String
  httpStatus : Option Nat

def classifyProviderLookupError (error : PostError) : ProviderLookupError :=
  match error.httpStatus with
  | none => .request error.message
  | some status =>
      if status = 401 ∨ status = 403 ∨ status = 421 then .authentication status error.message
      else if status = 429 ∨ status = 503 then .rateLimited status error.message
      else .request error.message

/-- The reply to a batch, after its retries. -/
inductive LookupReply where
  | error (error : PostError)
  | response (rateLimitObservations : Nat) (response : Json)

/-- The provider: the reply to each batch, by its number and the record names in it. -/
abbrev Provider := Nat → List String → LookupReply

/-- The libraries that the records are read with. -/
structure Host extends Changes.Host where
  /-- `DateTime::from_timestamp_millis`. -/
  fromTimestampMillis : Int → Option Int

def asArray : Json → Option (List Json)
  | .array items => some items
  | _ => none

/-- `serde_json::from_value` of an object. -/
def recordOfJson (value : Json) : Option Changes.Record :=
  let recordName : Option String :=
    match value.get "recordName" with
    | none => some ""
    | some name => name.asStr
  let recordType : Option String :=
    match value.get "recordType" with
    | none | some .null => some ""
    | some type => type.asStr
  let deleted : Option (Option Bool) :=
    match value.get "deleted" with
    | none | some .null => some none
    | some flag => flag.asBool.map some
  recordName.bind (fun recordName => recordType.bind (fun recordType =>
    deleted.map (fun deleted =>
      ⟨⟨recordName, recordType, (value.get "fields").getD .null⟩, deleted⟩)))

/-- `by_name`: of two records with one name, the later. -/
def byName (responseRecords : List Json) (name : String) : Option Json :=
  responseRecords.reverse.find? (fun record => (record.get "recordName").bind (·.asStr) = some name)

/-! ## resolutions -/

inductive RecordResolution where
  | present (photo : PhotoAsset)
  | assetPresent (masterRecordName : ProviderRecordId)
  | masterPresent
  | deleted (deletedAt : Option Int) (masterFamily : Bool)
  | unknown
  | transientFailure (error : ProviderLookupError)

def malformedMessage : MalformedRequiredAssetField → String
  | .masterRecordName => "CPLMaster recordName is missing or blank"
  | .assetRecordName => "CPLAsset recordName is missing or blank"
  | .assetDate => "CPLAsset assetDate is missing or invalid"

def explicitNotFound (record : Option Json) : Bool :=
  match record.bind (fun record => (record.get "serverErrorCode").bind (·.asStr)) with
  | some code => code = "UNKNOWN_ITEM" || code = "NOT_FOUND"
  | none => false

def tombstoned (record : Option Json) : Bool :=
  record.bind (fun record => (record.get "deleted").bind (·.asBool)) = some true

def deletedDate (host : Host) (record : Json) : Option Int :=
  ((((record.get "fields").bind (·.get "deletedDate")).bind (·.get "value")).bind
    Changes.asI64).bind host.fromTimestampMillis

/-- What is made of the two records of a request, as the reply has them. -/
def resolveRequest (host : Host) (records : String → Option Json)
    (request : RecordLookupRequest) : RecordResolution :=
  let master := records request.masterRecordName
  let asset := request.assetRecordName.bind records
  let deletedAt := (master.toList ++ asset.toList).findSome? (deletedDate host)
  let primaryDeleted := explicitNotFound master || tombstoned master
  let assetDeleted := explicitNotFound asset || tombstoned asset
  if primaryDeleted || assetDeleted then
    .deleted deletedAt (primaryDeleted && request.target = .master)
  else
    match master with
    | none => .unknown
    | some master =>
        match recordOfJson master, asset.map recordOfJson with
        | some master, some (some asset) =>
            if master.recordType = "CPLMaster" ∧ asset.recordType = "CPLAsset" then
              match PhotoAsset.tryFromRecords host.toHost master asset .downloadable with
              | .ok photo =>
                  .present (if request.stateId ≠ request.masterRecordName then
                    { photo with stateRecordName := some request.stateId } else photo)
              | .error error => .transientFailure (.malformed (malformedMessage error))
            else .unknown
        | some master, none =>
            if request.assetRecordName = none ∧ master.recordType = "CPLMaster" then .masterPresent
            else if request.target = .asset ∧ master.recordType = "CPLAsset" then
              match master.masterRef with
              | some masterRecordName => .assetPresent masterRecordName
              | none => .unknown
            else .unknown
        | _, _ => .unknown

/-! ## batches -/

def recordLookupBatchSize : Nat := 100

/-- `slice::chunks`, as long as there is fuel. -/
def chunksOf {α : Type} (size : Nat) : Nat → List α → List (List α)
  | 0, _ => []
  | fuel + 1, l =>
      if l.isEmpty then [] else l.take size :: chunksOf size fuel (l.drop size)

def chunks {α : Type} (size : Nat) (l : List α) : List (List α) := chunksOf size l.length l

/-- The record names that a batch asks for, each once. -/
def batchNames (batch : List RecordLookupRequest) : List String :=
  (batch.flatMap (·.recordNames)).eraseDups

/-- The resolutions of a batch, one for each request. -/
def resolveBatch (host : Host) (reply : LookupReply) (batch : List RecordLookupRequest) :
    List (ProviderRecordId × RecordResolution) :=
  match reply with
  | .error error => batch.map (fun request =>
      (request.stateId, .transientFailure (classifyProviderLookupError error)))
  | .response _ response =>
      match (response.get "records").bind asArray with
      | none => batch.map (fun request =>
          (request.stateId, .transientFailure (.malformed "missing records array")))
      | some responseRecords => batch.map (fun request =>
          (request.stateId, resolveRequest host (byName responseRecords) request))

/-- `results`, before they are merged. -/
def resolveBatches (host : Host) (post : Provider) :
    Nat → List (List RecordLookupRequest) → List (ProviderRecordId × RecordResolution)
  | _, [] => []
  | n, batch :: batches =>
      resolveBatch host (post n (batchNames batch)) batch ++
        resolveBatches host post (n + 1) batches

def rateLimitObservations (post : Provider) : Nat → List (List RecordLookupRequest) → Nat → Nat
  | _, [], seen => seen
  | n, batch :: batches, seen =>
      match post n (batchNames batch) with
      | .error _ => rateLimitObservations post (n + 1) batches seen
      | .response observations _ =>
          rateLimitObservations post (n + 1) batches (min (seen + observations) u64Max)

/-! ## one result for each state id -/

inductive ResolutionEvidence where
  | childDeleted
  | inconclusive
  | masterPresent
  | assetPresent
  | masterDeleted
  | present
  deriving DecidableEq

/-- The order of the constructors. -/
def ResolutionEvidence.rank : ResolutionEvidence → Nat
  | .childDeleted => 0
  | .inconclusive => 1
  | .masterPresent => 2
  | .assetPresent => 3
  | .masterDeleted => 4
  | .present => 5

instance : LinearOrder ResolutionEvidence :=
  LinearOrder.lift' ResolutionEvidence.rank (by intro a b; cases a <;> cases b <;> decide)

def resolutionEvidence : RecordResolution → ResolutionEvidence
  | .present _ => .present
  | .assetPresent _ => .assetPresent
  | .masterPresent => .masterPresent
  | .deleted _ true => .masterDeleted
  | .unknown | .transientFailure _ => .inconclusive
  | .deleted _ false => .childDeleted

def mergeRecordResolution (existing incoming : RecordResolution) : RecordResolution :=
  if resolutionEvidence existing < resolutionEvidence incoming then incoming else existing

/-- The results so far, and where in them each state id is. -/
structure Grouping where
  grouped : List (ProviderRecordId × RecordResolution)
  positions : ProviderRecordId → Option Nat

def Grouping.add (g : Grouping) (result : ProviderRecordId × RecordResolution) : Grouping :=
  match (g.positions result.1).filter (· < g.grouped.length) with
  | some index =>
      { g with grouped := g.grouped.modify index (fun existing =>
          (existing.1, mergeRecordResolution existing.2 result.2)) }
  | none =>
      ⟨g.grouped ++ [result], Function.update g.positions result.1 (some g.grouped.length)⟩

def groupResults (results : List (ProviderRecordId × RecordResolution)) :
    List (ProviderRecordId × RecordResolution) :=
  (results.foldl Grouping.add ⟨[], fun _ => none⟩).grouped

def RecordResolution.isSettled : RecordResolution → Bool
  | .present _ | .deleted _ _ => true
  | _ => false

structure RecordResolutionBatch where
  results : List (ProviderRecordId × RecordResolution)
  complete : Bool
  rateLimitObservations : Nat

/-- `resolve_records`, with batches of the given size. -/
def resolveRecordsIn (size : Nat) (host : Host) (post : Provider)
    (requests : List RecordLookupRequest) : RecordResolutionBatch :=
  let batches := chunks size requests
  let grouped := groupResults (resolveBatches host post 0 batches)
  ⟨grouped, grouped.all (·.2.isSettled), rateLimitObservations post 0 batches 0⟩

def resolveRecords (host : Host) (post : Provider) (requests : List RecordLookupRequest) :
    RecordResolutionBatch :=
  resolveRecordsIn recordLookupBatchSize host post requests

/-! ## the individual resolutions -/

section Individual

variable {host : Host} {post : Provider} {size : Nat}

theorem flatten_chunksOf {α : Type} (hsize : 0 < size) (fuel : Nat) (l : List α)
    (hfuel : l.length ≤ fuel) : (chunksOf size fuel l).flatten = l := by
  induction fuel generalizing l with
  | zero => simp_all [chunksOf]
  | succ fuel ih =>
      rw [chunksOf]
      by_cases hempty : l.isEmpty
      · simp_all
      · have hrest := ih (l.drop size) (by rw [List.length_drop]; omega)
        rw [if_neg hempty, List.flatten_cons, hrest, List.take_append_drop]

theorem flatten_chunks {α : Type} (hsize : 0 < size) (l : List α) :
    (chunks size l).flatten = l := flatten_chunksOf hsize l.length l le_rfl

theorem map_resolveBatch (reply : LookupReply) (batch : List RecordLookupRequest) :
    (resolveBatch host reply batch).map (·.1) = batch.map (·.stateId) := by
  cases reply with
  | error error => simp [resolveBatch]
  | response observations response =>
      cases hrecords : (response.get "records").bind asArray <;> simp [resolveBatch, hrecords]

theorem map_resolveBatches (n : Nat) (batches : List (List RecordLookupRequest)) :
    (resolveBatches host post n batches).map (·.1) = batches.flatten.map (·.stateId) := by
  induction batches generalizing n with
  | nil => simp [resolveBatches]
  | cons batch batches ih => simp [resolveBatches, map_resolveBatch, ih]

/-- The resolution of each request, by the reply to its batch. -/
def individualResolutions (size : Nat) (host : Host) (post : Provider)
    (requests : List RecordLookupRequest) : List (ProviderRecordId × RecordResolution) :=
  resolveBatches host post 0 (chunks size requests)

theorem map_individualResolutions (host : Host) (post : Provider) (hsize : 0 < size)
    (requests : List RecordLookupRequest) :
    (individualResolutions size host post requests).map (·.1) = requests.map (·.stateId) := by
  rw [individualResolutions, map_resolveBatches, flatten_chunks hsize]

end Individual

/-! ## the merge -/

/-- The positions are those of the state ids. -/
def Grouping.Placed (g : Grouping) : Prop :=
  ∀ stateId index, g.positions stateId = some index ↔
    (g.grouped[index]?).map (·.1) = some stateId

theorem placed_nil : Grouping.Placed ⟨[], fun _ => none⟩ := by simp [Grouping.Placed]

namespace Grouping

variable {g : Grouping}

/-- A state id that has a result: the stronger of the two is left in its place. -/
theorem add_known (h : g.Placed) {result existing : ProviderRecordId × RecordResolution}
    {index : Nat} (hexisting : g.grouped[index]? = some existing)
    (hkey : existing.1 = result.1) :
    (g.add result).grouped = Strongest.merge resolutionEvidence g.grouped result ∧
      (g.add result).positions = g.positions := by
  have hposition : g.positions result.1 = some index := by simp [h result.1 index, hexisting, hkey]
  have hlt : index < g.grouped.length := (List.getElem?_eq_some_iff.1 hexisting).1
  have hmem : result.1 ∈ g.grouped.map (·.1) :=
    List.mem_map.2 ⟨existing, List.mem_of_getElem? hexisting, hkey⟩
  have hadd : g.add result = { g with grouped := g.grouped.modify index (fun existing =>
      (existing.1, mergeRecordResolution existing.2 result.2)) } := by
    simp [add, hposition, Option.filter, hlt]
  rw [hadd]
  refine ⟨?_, rfl⟩
  rw [Strongest.merge, if_pos hmem]
  apply List.ext_getElem?
  intro i
  rw [List.getElem?_modify, List.getElem?_map]
  cases hentry : g.grouped[i]? with
  | none => rfl
  | some entry =>
      by_cases hi : index = i
      · obtain rfl : existing = entry := by
          rw [← hi, hexisting] at hentry
          exact Option.some.inj hentry
        obtain ⟨stateId, resolution⟩ := existing
        obtain ⟨resultId, incoming⟩ := result
        obtain rfl : stateId = resultId := hkey
        by_cases hstronger : resolutionEvidence resolution < resolutionEvidence incoming
        · simp [hi, mergeRecordResolution, hstronger]
        · simp [hi, mergeRecordResolution, hstronger]
      · have hother : entry.1 ≠ result.1 := by
          intro heq
          have hposition' : g.positions result.1 = some i := by
            simp [h result.1 i, hentry, heq]
          rw [hposition] at hposition'
          exact hi (Option.some.inj hposition')
        simp [hi, hother]

theorem add_new (h : g.Placed) {result : ProviderRecordId × RecordResolution}
    (hnew : result.1 ∉ g.grouped.map (·.1)) :
    (g.add result).grouped = Strongest.merge resolutionEvidence g.grouped result ∧
      (g.add result).positions =
        Function.update g.positions result.1 (some g.grouped.length) := by
  have hposition : g.positions result.1 = none := by
    rw [Option.eq_none_iff_forall_ne_some]
    intro index hindex
    obtain ⟨entry, hentry, hkey⟩ := Option.map_eq_some_iff.1 ((h result.1 index).1 hindex)
    exact hnew (List.mem_map.2 ⟨entry, List.mem_of_getElem? hentry, hkey⟩)
  have hadd : g.add result = ⟨g.grouped ++ [result],
      Function.update g.positions result.1 (some g.grouped.length)⟩ := by
    simp [add, hposition]
  rw [hadd, Strongest.merge, if_neg hnew]
  exact ⟨rfl, rfl⟩

theorem add_spec (h : g.Placed) (result : ProviderRecordId × RecordResolution) :
    (g.add result).grouped = Strongest.merge resolutionEvidence g.grouped result ∧
      (g.add result).Placed := by
  by_cases hknown : result.1 ∈ g.grouped.map (·.1)
  · obtain ⟨existing, hmem, hkey⟩ := List.mem_map.1 hknown
    obtain ⟨index, hexisting⟩ := List.getElem?_of_mem hmem
    obtain ⟨hgrouped, hpositions⟩ := add_known h hexisting hkey
    refine ⟨hgrouped, ?_⟩
    -- no key has changed
    have hkeys := Strongest.map_merge resolutionEvidence g.grouped result
    rw [if_pos hknown, ← hgrouped] at hkeys
    intro stateId i
    rw [hpositions, h stateId i, ← List.getElem?_map, ← List.getElem?_map, hkeys]
  · obtain ⟨hgrouped, hpositions⟩ := add_new h hknown
    refine ⟨hgrouped, ?_⟩
    rw [Strongest.merge, if_neg hknown] at hgrouped
    intro stateId i
    have hold := h stateId i
    rw [hpositions, hgrouped, List.getElem?_append, Function.update_apply]
    by_cases hid : stateId = result.1
    · subst hid
      grind
    · grind

end Grouping

theorem foldl_add {g : Grouping} (h : g.Placed)
    (results : List (ProviderRecordId × RecordResolution)) :
    (results.foldl Grouping.add g).grouped =
      results.foldl (Strongest.merge resolutionEvidence) g.grouped := by
  induction results generalizing g with
  | nil => rfl
  | cons result results ih =>
      obtain ⟨hgrouped, hplaced⟩ := Grouping.add_spec h result
      rw [List.foldl_cons, List.foldl_cons, ih hplaced, hgrouped]

theorem keeps_groupResults (results : List (ProviderRecordId × RecordResolution)) :
    Strongest.Keeps resolutionEvidence results (groupResults results) := by
  have hkeeps := (Strongest.keeps_nil resolutionEvidence).foldl results
  rwa [List.nil_append, ← foldl_add placed_nil results] at hkeeps

theorem keeps_resolveRecords (size : Nat) (host : Host) (post : Provider)
    (requests : List RecordLookupRequest) :
    Strongest.Keeps resolutionEvidence (individualResolutions size host post requests)
      (resolveRecordsIn size host post requests).results :=
  keeps_groupResults _

/-! ## a provider that says the same in every batch -/

/-- What the provider says of a record does not depend on the batch that asks for it. -/
def Provider.Says (post : Provider) (records : String → Option Json) : Prop :=
  ∀ n names, ∃ observations response responseRecords,
    post n names = .response observations response ∧
      (response.get "records").bind asArray = some responseRecords ∧
        ∀ name ∈ names, byName responseRecords name = records name

section Says

variable {host : Host} {post : Provider} {size : Nat} {records records' : String → Option Json}

theorem resolveRequest_congr {request : RecordLookupRequest}
    (h : ∀ name ∈ request.recordNames, records name = records' name) :
    resolveRequest host records request = resolveRequest host records' request := by
  have hmaster := h request.masterRecordName (by simp [RecordLookupRequest.recordNames])
  have hasset : request.assetRecordName.bind records = request.assetRecordName.bind records' := by
    cases hname : request.assetRecordName with
    | none => rfl
    | some name => exact h name (by simp [RecordLookupRequest.recordNames, hname])
  simp only [resolveRequest, hmaster, hasset]

theorem resolveBatches_answered (h : post.Says records) (n : Nat)
    (batches : List (List RecordLookupRequest)) :
    resolveBatches host post n batches =
      batches.flatten.map (fun request =>
        (request.stateId, resolveRequest host records request)) := by
  induction batches generalizing n with
  | nil => rfl
  | cons batch batches ih =>
      obtain ⟨observations, response, responseRecords, hpost, hrecords, hanswer⟩ :=
        h n (batchNames batch)
      have hbatch : resolveBatch host (post n (batchNames batch)) batch =
          batch.map (fun request => (request.stateId, resolveRequest host records request)) := by
        simp only [hpost, resolveBatch, hrecords]
        apply List.map_congr_left
        intro request hrequest
        have hnames : ∀ name ∈ request.recordNames, byName responseRecords name = records name := by
          intro name hname
          apply hanswer name
          rw [batchNames, List.mem_eraseDups, List.mem_flatMap]
          exact ⟨request, hrequest, hname⟩
        rw [resolveRequest_congr hnames]
      rw [resolveBatches, hbatch, ih, List.flatten_cons, List.map_append]

theorem individualResolutions_answered (h : post.Says records) (hsize : 0 < size)
    (requests : List RecordLookupRequest) : individualResolutions size host post requests =
      requests.map (fun request => (request.stateId, resolveRequest host records request)) := by
  rw [individualResolutions, resolveBatches_answered h, flatten_chunks hsize]

end Says

/-! ## one result for each state id, with the strongest evidence -/

theorem childDeleted_le (evidence : ResolutionEvidence) : .childDeleted ≤ evidence := by
  cases evidence <;> decide

theorem resolutionEvidence_eq_childDeleted {resolution : RecordResolution} :
    resolutionEvidence resolution = .childDeleted ↔
      ∃ deletedAt, resolution = .deleted deletedAt false := by
  cases resolution with
  | deleted deletedAt masterFamily => cases masterFamily <;> simp [resolutionEvidence]
  | _ => simp [resolutionEvidence]

/-- The same resolutions of each state id, in any order and from any batches. -/
theorem evidence_eq_of_perm {size size' : Nat} {host : Host} {post post' : Provider}
    {requests requests' : List RecordLookupRequest}
    (h : (individualResolutions size' host post' requests').Perm
      (individualResolutions size host post requests))
    {stateId : ProviderRecordId} {resolution resolution' : RecordResolution}
    (hmem : (stateId, resolution) ∈ (resolveRecordsIn size host post requests).results)
    (hmem' : (stateId, resolution') ∈ (resolveRecordsIn size' host post' requests').results) :
    resolutionEvidence resolution' = resolutionEvidence resolution :=
  (keeps_resolveRecords size' host post' requests').rank_eq
    (keeps_resolveRecords size host post requests) (fun _ => h.mem_iff) hmem' hmem

/-- **The strongest evidence.**  Each state id that is asked for has one result.  Its evidence is
the highest of the id's resolutions, so a child alone is deleted only if every request says
so; and neither the order of the requests nor their batches change it. -/
theorem resolveRecords_strongest (host : Host) (post : Provider)
    (requests : List RecordLookupRequest) :
    let individual := individualResolutions recordLookupBatchSize host post requests
    let results := (resolveRecords host post requests).results
    individual.map (·.1) = requests.map (·.stateId) ∧
    (results.map (·.1)).Nodup ∧
    (∀ stateId, stateId ∈ results.map (·.1) ↔ ∃ request ∈ requests, request.stateId = stateId) ∧
    (∀ stateId resolution, (stateId, resolution) ∈ results →
      (stateId, resolution) ∈ individual ∧
        IsGreatest {evidence | ∃ r, (stateId, r) ∈ individual ∧ resolutionEvidence r = evidence}
          (resolutionEvidence resolution)) ∧
    (∀ stateId deletedAt, (stateId, .deleted deletedAt false) ∈ results →
      ∀ r, (stateId, r) ∈ individual → ∃ deletedAt', r = .deleted deletedAt' false) ∧
    (∀ size' post' requests',
      (individualResolutions size' host post' requests').Perm individual →
        ∀ stateId resolution resolution', (stateId, resolution) ∈ results →
          (stateId, resolution') ∈ (resolveRecordsIn size' host post' requests').results →
            resolutionEvidence resolution' = resolutionEvidence resolution) ∧
    (∀ records size' post' requests', post.Says records → post'.Says records → 0 < size' →
      requests'.Perm requests →
        ∀ stateId resolution resolution', (stateId, resolution) ∈ results →
          (stateId, resolution') ∈ (resolveRecordsIn size' host post' requests').results →
            resolutionEvidence resolution' = resolutionEvidence resolution) := by
  have hsize : 0 < recordLookupBatchSize := by decide
  have hkeeps := keeps_resolveRecords recordLookupBatchSize host post requests
  have hkeys := map_individualResolutions host post hsize requests
  refine ⟨hkeys, hkeeps.nodup, ?_, ?_, ?_, ?_, ?_⟩
  · intro stateId
    exact (hkeeps.keys stateId).trans (by rw [hkeys, List.mem_map])
  · intro stateId resolution hmem
    exact ⟨hkeeps.mem _ hmem, hkeeps.isGreatest hmem⟩
  · intro stateId deletedAt hmem r hr
    have hle : resolutionEvidence r ≤ .childDeleted := (hkeeps.isGreatest hmem).2 ⟨r, hr, rfl⟩
    exact resolutionEvidence_eq_childDeleted.1 (le_antisymm hle (childDeleted_le _))
  · intro size' post' requests' hperm stateId resolution resolution' hmem hmem'
    exact evidence_eq_of_perm hperm hmem hmem'
  · intro records size' post' requests' hanswer hanswer' hsize' hperm stateId resolution resolution'
      hmem hmem'
    have hindividual : (individualResolutions size' host post' requests').Perm
        (individualResolutions recordLookupBatchSize host post requests) := by
      rw [individualResolutions_answered hanswer hsize,
        individualResolutions_answered hanswer' hsize']
      exact hperm.map _
    exact evidence_eq_of_perm hindividual hmem hmem'

/-! ## a child that is gone, and its master -/

def plainHost : Host where
  platform := .linux
  decodeBase64 := some
  dateOfNumber _ := none
  fromTimestampMillis := some

def masterRecord : Json :=
  .object [("recordName", .string "m"), ("recordType", .string "CPLMaster")]

def goneRecord : Json :=
  .object [("recordName", .string "gone"), ("serverErrorCode", .string "NOT_FOUND")]

/-- It has these two records in every reply. -/
def twoRecords : Provider := fun _ _ =>
  .response 0 (.object [("records", .array [masterRecord, goneRecord])])

/-- Two requests for `s`: its asset is gone, and its master is there. -/
def threeRequests : List RecordLookupRequest :=
  [.paired "s" "m" "gone", .assetOnly "t", .masterOnly "s" "m"]

theorem twoRecords_answered : twoRecords.Says (byName [masterRecord, goneRecord]) :=
  fun _ _ => ⟨0, _, _, rfl, rfl, fun _ _ => rfl⟩

/-- The asset alone would be deleted; with the master there it is not, in whatever batches. -/
theorem resolveRecords_strongest_child :
    ("s", .deleted none false) ∈ individualResolutions recordLookupBatchSize plainHost twoRecords
        threeRequests ∧
      (resolveRecords plainHost twoRecords threeRequests).results =
        [("s", .masterPresent), ("t", .unknown)] ∧
      ∀ resolution, ("s", resolution) ∈
          (resolveRecordsIn 1 plainHost twoRecords threeRequests.reverse).results →
        resolutionEvidence resolution = .masterPresent := by
  have hresults : (resolveRecords plainHost twoRecords threeRequests).results =
      [("s", .masterPresent), ("t", .unknown)] := rfl
  refine ⟨List.mem_cons_self, hresults, ?_⟩
  intro resolution hmem
  obtain ⟨-, -, -, -, -, -, hstable⟩ :=
    resolveRecords_strongest plainHost twoRecords threeRequests
  have hmaster : ("s", .masterPresent) ∈
      (resolveRecords plainHost twoRecords threeRequests).results := by simp [hresults]
  exact hstable _ 1 twoRecords threeRequests.reverse twoRecords_answered
    twoRecords_answered (by decide)
    (List.reverse_perm _) "s" .masterPresent resolution hmaster hmem

end Kei.Lookup
