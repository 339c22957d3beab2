import Kei.Lib.Proc
import Kei.Lib.Str

/-!
# Kei.PhotoStream

The photo stream of an album: the plan of its ranges, the fetcher of each
range with the pairing of master and asset records, and the token that the
fetchers together give.

A fetcher is a process: it asks the provider for pages, claims the records it
emits, sends them to the stream, and reports its end.  Its answers are those of
the provider, of the consumer, and of the state the fetchers share.
-/

namespace Kei.PhotoStream

open Str

/-! ## records -/

inductive Json where
  | null
  | bool (b : Bool)
  | number (text : String)
  | string (s : String)
  | array (items : List Json)
  | object (fields : List (String × Json))

/-- `Value::get` of a key. -/
def Json.get (key : String) : Json → Option Json
  | .object fields => fields.lookup key
  | _ => none

def Json.asStr : Json → Option String
  | .string s => some s
  | _ => none

def Json.asBool : Json → Option Bool
  | .bool b => some b
  | _ => none

structure Record where
  recordName : String
  recordType : String
  fields : Json

/-- The name of the master record that an asset record refers to. -/
def Record.masterRef (rec : Record) : Option String :=
  (((rec.fields.get "masterRef").bind (·.get "value")).bind (·.get "recordName")).bind (·.asStr)

/-- Records by the name of their master, in order of arrival. -/
abbrev ByMaster := List (String × Record)

def ByMaster.recordsOf (m : ByMaster) (id : String) : List Record :=
  (m.filter (fun e => e.1 = id)).map (·.2)

def ByMaster.remove (m : ByMaster) (id : String) : ByMaster := m.filter (fun e => e.1 ≠ id)

/-- Put a master record under its own name. -/
def insertMaster (m : ByMaster) (master : Record) : ByMaster :=
  m.remove master.recordName ++ [(master.recordName, master)]

/-! ## ranges -/

inductive FetcherRangeRole where
  /-- A known interval of ranks. -/
  | data
  /-- The owner of what is past the count, until the end. -/
  | tailProof
  /-- A bounded stream, which looks one asset past its bound. -/
  | limitProbe
  deriving DecidableEq

inductive EnumerationFailure where
  | fetcherError
  | consumerDropped
  | malformedRecord
  | unpairedRecords
  deriving DecidableEq

inductive EnumerationCompletion where
  | provenEof
  | userBoundReached
  | incomplete (failure : EnumerationFailure)
  deriving DecidableEq

def u64Max : Nat := 2 ^ 64 - 1

structure FetcherRange where
  start : Nat
  «end» : Nat
  limit : Option Nat
  role : FetcherRangeRole

structure FetcherBehavior where
  pageSize : Nat
  preserveBlankSyncTokensForDiagnostics : Bool
  allowUnpairedAtRangeBoundary : Bool
  treatEmptyTailAsError : Bool

inductive PhotoStreamProfile where
  | fastEnumeration (concurrency : Nat)
  | backpressuredDownload (downloadConcurrency : Nat)

def downloadStreamPageSize (defaultPageSize downloadConcurrency : Nat) : Nat :=
  max (min defaultPageSize (max downloadConcurrency 1 * 2)) 1

def PhotoStreamProfile.requestPageSize (profile : PhotoStreamProfile) (defaultPageSize : Nat) :
    Nat :=
  match profile with
  | .fastEnumeration _ => max defaultPageSize 1
  | .backpressuredDownload n => downloadStreamPageSize defaultPageSize n

def PhotoStreamProfile.fetcherConcurrency : PhotoStreamProfile → Nat
  | .fastEnumeration concurrency => max concurrency 1
  | .backpressuredDownload _ => 1

def divCeil (n d : Nat) : Nat := (n + d - 1) / d

def determineFetcherCount (totalItems pageSize concurrency : Nat) : Nat :=
  max (min (divCeil totalItems pageSize) concurrency) 1

/-- The range of the `i`-th fetcher of a counted inventory. -/
def dataRange (total chunkSizeItems i : Nat) : Option FetcherRange :=
  let start := i * chunkSizeItems
  let stop := min ((i + 1) * chunkSizeItems) total
  if start < stop then some ⟨start, stop, none, .data⟩ else none

/-- The ranges of a plan: the sequential ones have one owner, the others end with the owner
of the tail. -/
def buildEnumerationPlan (limit totalCount : Option Nat) (pageSize : Nat)
    (profile : PhotoStreamProfile) : List FetcherRange :=
  match limit, totalCount with
  | some limit, _ => [⟨0, u64Max, some limit, .limitProbe⟩]
  | none, none => [⟨0, u64Max, none, .tailProof⟩]
  | none, some total =>
      if profile.fetcherConcurrency = 1 then
        [⟨0, u64Max, none, .tailProof⟩]
      else
        let numFetchers :=
          if 0 < total then determineFetcherCount total pageSize (profile.fetcherConcurrency * 2)
          else 1
        let chunkSizeItems := divCeil (divCeil total numFetchers) pageSize * pageSize
        (List.range numFetchers).filterMap (dataRange total chunkSizeItems) ++
          [⟨total, u64Max, none, .tailProof⟩]

/-! ## calls -/

inductive FullAssetStateId where
  | master
  | asset
  deriving DecidableEq

/-- What a fetcher sends to the stream. -/
inductive StreamItem where
  | asset (master asset : Record) (stateId : FullAssetStateId)
  | error (message : String)

/-- The answer to a query. -/
inductive PageReply where
  /-- The request failed, or its response could not be read. -/
  | error (message : String)
  | page (syncToken : Option String) (records : List Record)

inductive Op where
  | isClosed
  | post (offset : Nat)
  /-- Become the owner of a record, unless another range is. -/
  | claim (recordName : String) (rangeStart : Nat)
  | send (item : StreamItem)
  | suppress
  | complete (token : Option String) (completion : EnumerationCompletion)

def Resp : Op → Type
  | .isClosed => Bool
  | .post _ => PageReply
  | .claim _ _ => Bool
  | .send _ => Bool
  | .suppress => Unit
  | .complete _ _ => Unit

abbrev FetcherProc (α : Type) := Proc Op Resp α

def isClosed : FetcherProc Bool := .perform Op.isClosed

def post (offset : Nat) : FetcherProc PageReply := .perform (Op.post offset)

def claim (recordName : String) (rangeStart : Nat) : FetcherProc Bool :=
  .perform (Op.claim recordName rangeStart)

/-- `tx.send(..).await.is_ok()`. -/
def send (item : StreamItem) : FetcherProc Bool := .perform (Op.send item)

def suppress : FetcherProc Unit := .perform Op.suppress

def complete (token : Option String) (completion : EnumerationCompletion) : FetcherProc Unit :=
  .perform (Op.complete token completion)

/-! ## a fetcher -/

/-- What fetchers use besides their calls. -/
structure Host where
  /-- `PhotoAsset::try_from_records`: the reason why the records make no asset. -/
  tryFromRecords : Record → Record → Option String
  /-- The order in which a hash map gives its keys. -/
  keyOrder : List String → List String
  keyOrder_perm : ∀ keys, (keyOrder keys).Perm keys
  /-- The first key of a hash map of masters. -/
  firstKey : List String → Option String

structure FetchState where
  offset : Nat
  totalSent : Nat
  lastSyncToken : Option String
  sawBlankSyncToken : Bool
  pendingMasters : ByMaster
  pendingAssets : ByMaster
  pairedMasters : ByMaster
  emittedAssetRecords : List String
  consecutiveEmptyPages : Nat
  enumerationIncomplete : Bool
  malformedRecord : Bool
  stoppedForLimit : Bool
  /-- Of the page at hand. -/
  limitReached : Bool
  /-- Of the page at hand. -/
  pageEmitted : Nat

def FetchState.init (start : Nat) : FetchState :=
  ⟨start, 0, none, false, [], [], [], [], 0, false, false, false, false, 0⟩

def prunePairedMasterCache (host : Host) (m : ByMaster) (maxRecords : Nat) : ByMaster :=
  if m.length ≤ maxRecords then
    m
  else
    match host.firstKey (m.map (·.1)) with
    | some key => m.remove key
    | none => m

/-- Whether to emit a record, and the records emitted in this range so far. -/
def shouldEmitAssetRecord (recordName : String) (range : FetcherRange)
    (emittedInRange : List String) : FetcherProc (Bool × List String) :=
  if range.role = .data then do
    let mine ← claim recordName range.start
    return (mine, emittedInRange)
  else if recordName ∈ emittedInRange then
    return (false, emittedInRange)
  else do
    let mine ← claim recordName range.start
    return (mine, emittedInRange ++ [recordName])

inductive FullAssetEmission where
  | sent
  | malformed
  | receiverClosed
  deriving DecidableEq

def emitFullAsset (host : Host) (master assetRecord : Record) (stateId : FullAssetStateId) :
    FetcherProc FullAssetEmission :=
  match host.tryFromRecords master assetRecord with
  | some error => do
      let ok ← send (.error ("Malformed required CloudKit asset field: " ++ error))
      return if ok then .malformed else .receiverClosed
  | none => do
      let ok ← send (.asset master assetRecord stateId)
      return if ok then .sent else .receiverClosed

/-- Emit the records of one master, up to the limit of the range. -/
def emitAssets (host : Host) (range : FetcherRange) (master : Record) :
    List (FullAssetStateId × Record) → FetchState → FetcherProc FetchState
  | [], st => return st
  | (stateId, assetRec) :: rest, st => do
      let (emit, emitted) ← shouldEmitAssetRecord assetRec.recordName range st.emittedAssetRecords
      let st := { st with emittedAssetRecords := emitted }
      if emit then
        if range.limit.any (fun n => n ≤ st.totalSent) then
          return { st with limitReached := true }
        else
          match ← emitFullAsset host master assetRec stateId with
          | .sent =>
              emitAssets host range master rest
                { st with totalSent := st.totalSent + 1, pageEmitted := st.pageEmitted + 1 }
          | .malformed =>
              emitAssets host range master rest
                { st with enumerationIncomplete := true, malformedRecord := true }
          | .receiverClosed => .stop
      else
        emitAssets host range master rest st

/-- The first of several siblings keeps the identity of the master. -/
def siblings (records : List Record) : List (FullAssetStateId × Record) :=
  records.zipIdx.map (fun entry =>
    (if 1 < records.length && 0 < entry.2 then .asset else .master, entry.1))

def maxPendingRecords (behavior : FetcherBehavior) : Nat := max (behavior.pageSize * 4) 1

/-- The master was paired. -/
def FetchState.paired (host : Host) (behavior : FetcherBehavior) (st : FetchState)
    (master : Record) : FetchState :=
  { st with
    pairedMasters := prunePairedMasterCache host (insertMaster st.pairedMasters master)
      (maxPendingRecords behavior) }

/-- A master of the page: its assets from earlier pages and from this one, or a place among
the pending masters. -/
def placeMaster (host : Host) (range : FetcherRange) (behavior : FetcherBehavior)
    (master : Record) (st : FetchState) (pageAssets : ByMaster) :
    FetcherProc (FetchState × ByMaster) := do
  let assetRecords := st.pendingAssets.recordsOf master.recordName ++
    pageAssets.recordsOf master.recordName
  let st := { st with pendingAssets := st.pendingAssets.remove master.recordName }
  let pageAssets := pageAssets.remove master.recordName
  if assetRecords = [] then
    let st := { st with pendingMasters := insertMaster st.pendingMasters master }
    return ({ st with offset := st.offset + 1 }, pageAssets)
  else
    let st ← emitAssets host range master (siblings assetRecords) st
    let st := st.paired host behavior master
    return ({ st with offset := st.offset + 1 }, pageAssets)

def placeMasters (host : Host) (range : FetcherRange) (behavior : FetcherBehavior) :
    List Record → FetchState → ByMaster → FetcherProc (FetchState × ByMaster)
  | [], st, pageAssets => return (st, pageAssets)
  | master :: rest, st, pageAssets => do
      let (st, pageAssets) ← placeMaster host range behavior master st pageAssets
      placeMasters host range behavior rest st pageAssets

/-- The assets of the page that have their master on an earlier page, or wait for it. -/
def placeGroup (host : Host) (range : FetcherRange) (behavior : FetcherBehavior)
    (masterId : String) (records : List Record) (st : FetchState) : FetcherProc FetchState :=
  match st.pendingMasters.lookup masterId with
  | some master => do
      let st := { st with pendingMasters := st.pendingMasters.remove masterId }
      let st ← emitAssets host range master (siblings records) st
      return st.paired host behavior master
  | none =>
      match st.pairedMasters.lookup masterId with
      | some master =>
          emitAssets host range master (records.map (fun rec => (.asset, rec))) st
      | none =>
          return { st with
            pendingAssets := st.pendingAssets ++ records.map (fun rec => (masterId, rec)) }

def placeGroups (host : Host) (range : FetcherRange) (behavior : FetcherBehavior)
    (pageAssets : ByMaster) : List String → FetchState → FetcherProc FetchState
  | [], st => return st
  | masterId :: rest, st => do
      let st ← placeGroup host range behavior masterId (pageAssets.recordsOf masterId) st
      placeGroups host range behavior pageAssets rest st

/-- The assets of a page, by their masters. -/
def pageAssetsOf (records : List Record) : ByMaster :=
  records.filterMap (fun rec =>
    if rec.recordType = "CPLAsset" then rec.masterRef.map (fun id => (id, rec)) else none)

def pageMastersOf (records : List Record) : List Record :=
  records.filter (fun rec => rec.recordType = "CPLMaster")

/-- The limit was reached on this page. -/
def FetchState.stopForLimit (range : FetcherRange) (st : FetchState) : FetchState :=
  { st with stoppedForLimit := range.role = .limitProbe }

def FetchState.observeToken (st : FetchState) (syncToken : Option String) : FetchState :=
  match syncToken with
  | none => st
  | some token =>
      if trim token = "" then { st with sawBlankSyncToken := true }
      else { st with lastSyncToken := some (trim token) }

def maxEmptyPageProbes : Nat := 5

def pendingRecordCount (st : FetchState) : Nat :=
  st.pendingMasters.length + st.pendingAssets.length

/-- Go through a page that has records: the state after it, and whether to go on. -/
def placePage (host : Host) (range : FetcherRange) (behavior : FetcherBehavior)
    (records : List Record) (st : FetchState) : FetcherProc (FetchState × Bool) := do
  let pageAssets := pageAssetsOf records
  let pageMasters := pageMastersOf records
  let st := { st with limitReached := false, pageEmitted := 0 }
  let st :=
    if pageMasters = [] then { st with offset := st.offset + max pageAssets.length 1 } else st
  let (st, pageAssets) ← placeMasters host range behavior pageMasters st pageAssets
  if st.limitReached then
    return (st.stopForLimit range, false)
  else
    let st ← placeGroups host range behavior pageAssets
      (host.keyOrder (pageAssets.map (·.1)).eraseDups) st
    if st.limitReached then
      return (st.stopForLimit range, false)
    else if maxPendingRecords behavior < pendingRecordCount st then
      let _ ← send (.error ("Photo enumeration is incomplete: " ++
        toString (pendingRecordCount st) ++
        " unpaired CPLMaster/CPLAsset records exceeded the pending-pair buffer."))
      return ({ st with enumerationIncomplete := true }, false)
    else if st.pageEmitted = 0 then
      let st := { st with consecutiveEmptyPages := st.consecutiveEmptyPages + 1 }
      return (st, st.consecutiveEmptyPages < maxEmptyPageProbes)
    else
      return ({ st with consecutiveEmptyPages := 0 }, true)

/-- A page without records: the state after it, and whether to go on. -/
def placeEmptyPage (range : FetcherRange) (behavior : FetcherBehavior) (st : FetchState) :
    FetcherProc (FetchState × Bool) := do
  let st := { st with consecutiveEmptyPages := st.consecutiveEmptyPages + 1 }
  if maxEmptyPageProbes ≤ st.consecutiveEmptyPages then
    if behavior.treatEmptyTailAsError && range.role = .data && range.limit.isNone &&
        range.end = u64Max then
      let _ ← send (.error ("Photo enumeration is incomplete: Apple returned " ++
        toString maxEmptyPageProbes ++
        " consecutive empty pages without confirming the end of the stream."))
      return ({ st with enumerationIncomplete := true }, false)
    else
      return (st, false)
  else
    return ({ st with offset := st.offset + behavior.pageSize }, true)

/-- The loop over the pages, for at most `fuel` of them. -/
def fetchPages (host : Host) (range : FetcherRange) (behavior : FetcherBehavior) :
    Nat → FetchState → FetcherProc FetchState
  | 0, _ => .stop
  | fuel + 1, st => do
      if ← isClosed then
        complete none (.incomplete .consumerDropped)
        .stop
      else if range.end ≤ st.offset then
        return st
      else
        match ← post st.offset with
        | .error message =>
            let _ ← send (.error message)
            complete none (.incomplete .fetcherError)
            .stop
        | .page syncToken records =>
            let st := st.observeToken syncToken
            let (st, goOn) ←
              if records = [] then placeEmptyPage range behavior st
              else placePage host range behavior records st
            if goOn then fetchPages host range behavior fuel st else return st

/-- Records that wait for their other half. -/
def hasUnpaired (behavior : FetcherBehavior) (st : FetchState) : Bool :=
  !st.stoppedForLimit && !behavior.allowUnpairedAtRangeBoundary &&
    (!st.pendingMasters.isEmpty || !st.pendingAssets.isEmpty)

def completionOf (st : FetchState) : EnumerationCompletion :=
  if st.malformedRecord then .incomplete .malformedRecord
  else if st.enumerationIncomplete then .incomplete .unpairedRecords
  else if st.stoppedForLimit then .userBoundReached
  else .provenEof

/-- The token and the completion that a fetcher reports. -/
def report (behavior : FetcherBehavior) (st : FetchState) : FetcherProc FetchState := do
  if st.stoppedForLimit then
    suppress
  let token :=
    st.lastSyncToken <|>
      if st.sawBlankSyncToken && behavior.preserveBlankSyncTokensForDiagnostics then some ""
      else none
  complete token (completionOf st)
  return st

/-- The end of a fetcher. -/
def finish (behavior : FetcherBehavior) (st : FetchState) : FetcherProc FetchState :=
  if hasUnpaired behavior st then do
    let _ ← send (.error ("Photo enumeration is incomplete: " ++
      toString st.pendingMasters.length ++ " unpaired CPLMaster records and " ++
      toString st.pendingAssets.length ++
      " unpaired CPLAsset records remained at the end of the stream."))
    report behavior { st with enumerationIncomplete := true }
  else
    report behavior st

/-- The fetcher of a range, with the state it ends in. -/
def spawnFetcher (host : Host) (fuel : Nat) (behavior : FetcherBehavior) (range : FetcherRange) :
    FetcherProc FetchState := do
  let st ← fetchPages host range behavior fuel (.init range.start)
  finish behavior st

/-! ## the stream -/

/-- What the fetchers report. -/
structure FetcherSyncTokenCapture where
  observations : List (Option String × EnumerationCompletion)
  expectedFetchers : Nat
  completedFetchers : Nat
  suppressed : Bool

/-- What the fetchers share. -/
structure Shared where
  /-- The range that owns a record. -/
  rangeRecordOwners : String → Option Nat
  capture : FetcherSyncTokenCapture
  /-- What the consumer was given. -/
  stream : List StreamItem

/-- What the provider, the consumer and the lock decide. -/
structure Choice where
  closed : Bool
  delivered : Bool
  poisoned : Bool
  reply : PageReply

/-- The owner of a record is the range that asks first. -/
def Shared.claim (s : Shared) (recordName : String) (rangeStart : Nat) : Bool × Shared :=
  match s.rangeRecordOwners recordName with
  | some owner => (owner = rangeStart, s)
  | none =>
      (true, { s with
        rangeRecordOwners := fun name =>
          if name = recordName then some rangeStart else s.rangeRecordOwners name })

def answer (s : Shared) : (op : Op) → Choice → Resp op × Shared
  | .isClosed, c => (c.closed, s)
  | .post _, c => (c.reply, s)
  | .claim recordName rangeStart, c =>
      if c.poisoned then (true, s) else s.claim recordName rangeStart
  | .send item, c =>
      if c.delivered then (true, { s with stream := s.stream ++ [item] }) else (false, s)
  | .suppress, _ => ((), { s with capture.suppressed := true })
  | .complete token completion, _ =>
      ((), { s with
        capture.observations := s.capture.observations ++ [(token, completion)],
        capture.completedFetchers := s.capture.completedFetchers + 1 })

/-- The caller's limit, the count it knows, and how to enumerate. -/
structure StreamRequest where
  limit : Option Nat
  totalCount : Option Nat
  profile : PhotoStreamProfile
  preserveBlankSyncTokensForDiagnostics : Bool
  treatEmptyTailAsError : Bool

def StreamRequest.ranges (request : StreamRequest) (defaultPageSize : Nat) : List FetcherRange :=
  buildEnumerationPlan request.limit request.totalCount
    (request.profile.requestPageSize defaultPageSize) request.profile

/-- The fetchers of a stream before their first call. -/
def photoStreamInner (host : Host) (fuel defaultPageSize : Nat) (request : StreamRequest) :
    Proc.Pool Op Resp Shared FetchState :=
  let ranges := request.ranges defaultPageSize
  let behavior : FetcherBehavior :=
    { pageSize := request.profile.requestPageSize defaultPageSize,
      preserveBlankSyncTokensForDiagnostics := request.preserveBlankSyncTokensForDiagnostics,
      allowUnpairedAtRangeBoundary := 1 < ranges.length,
      treatEmptyTailAsError := request.treatEmptyTailAsError }
  { procs := ranges.map (spawnFetcher host fuel behavior),
    shared :=
      { rangeRecordOwners := fun _ => none,
        capture :=
          { observations := [],
            expectedFetchers := ranges.length,
            completedFetchers := 0,
            suppressed :=
              match request.limit, request.totalCount with
              | some limit, some total => limit < total
              | _, _ => false },
        stream := [] },
    log := [] }

def unanimousFetcherSyncToken (tokens : List String) : Option String :=
  match tokens with
  | [] => none
  | first :: _ => if tokens.all (fun token => token = first) then some first else none

/-- The token of the stream. -/
def FetcherSyncTokenCapture.resolve (capture : FetcherSyncTokenCapture) : Option String :=
  if capture.suppressed then
    none
  else if capture.completedFetchers ≠ capture.expectedFetchers then
    none
  else if capture.observations.any (fun o =>
      match o.2 with | .incomplete _ => true | _ => false) then
    none
  else if capture.observations.any (fun o => o.2 = .userBoundReached) then
    none
  else
    unanimousFetcherSyncToken (capture.observations.filterMap (·.1))

end Kei.PhotoStream
