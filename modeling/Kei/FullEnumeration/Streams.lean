import Kei.Download.Planner
import Kei.FullEnumeration

/-!
# Kei.FullEnumeration.Streams

The streams of the passes of a full enumeration, and what of them is handed on.

Each stream is cut at the bounds of the run.  What an album pass takes from its
stream is recorded on the way, and the deferred unfiled pass, which comes last,
leaves out what is recorded.
-/

namespace Kei.FullEnumeration

structure ListedAsset where
  assetRecordName : String
  /-- Milliseconds. -/
  created : Int

abbrev Item := Except String ListedAsset

inductive RecentScope where
  | global
  | perFilter
  deriving DecidableEq

/-- The configuration, with the bounds of its streams. -/
structure StreamConfig where
  requiresPerPassPaths : Bool
  hasStateDb : Bool
  recent : Option Nat
  recentScope : RecentScope
  skipCreatedBefore : Option Download.CreatedDateFilter

def StreamConfig.toDownloadConfig (config : StreamConfig) : DownloadConfig :=
  ⟨config.requiresPerPassPaths, config.hasStateDb, config.recent, config.skipCreatedBefore.isSome⟩

/-! ## bounds -/

structure RecentFrontier where
  assetIds : List String
  oldestCreated : Option Int

/-- A day earlier than the date, for the offsets of local times. -/
def conservativeUtcLowerBound : Download.CreatedDateFilter → Int
  | .instant boundary => boundary
  | .captureDate boundary => boundary * 86400000 - 86400000

def enumerationCreatedLowerBound (config : StreamConfig) : Option Int :=
  config.skipCreatedBefore.map conservativeUtcLowerBound

def streamCreatedLowerBound (config : StreamConfig) (frontier : Option RecentFrontier) :
    Option Int :=
  match frontier.bind (·.oldestCreated), enumerationCreatedLowerBound config with
  | some oldest, some bound => some (max oldest bound)
  | some oldest, none => some oldest
  | none, bound => bound

def inBounds (lowerCreatedBound : Option Int) : Item → Bool
  | .ok asset => lowerCreatedBound.all (fun boundary => boundary ≤ asset.created)
  | .error _ => true

def inFrontier (frontier : Option RecentFrontier) : Item → Bool
  | .ok asset => frontier.all (fun f => f.assetIds.contains asset.assetRecordName)
  | .error _ => true

def filterStreamToEnumerationBounds (stream : List Item) (config : StreamConfig)
    (frontier : Option RecentFrontier) : List Item :=
  (stream.takeWhile (inBounds (streamCreatedLowerBound config frontier))).filter
    (inFrontier frontier)

def scopeFrontierLimit (config : StreamConfig) (frontier : Option RecentFrontier) : Option Nat :=
  match frontier with
  | none => config.recent
  | some _ => none

/-! ## streams -/

/-- What the streams yield until they close, with a limit. -/
structure ZoneStreams where
  libraryWide : Nat → List Item
  /-- By the index of the pass. -/
  pass : Nat → Option Nat → List Item
  /-- A fetcher of the pass has panicked, which closes its stream. -/
  panicked : Nat → Bool

def shouldUseGlobalRecentFrontier (passes : List AlbumPass) (config : StreamConfig) : Bool :=
  config.recent.isSome && config.recentScope = .global &&
    passes.any (fun pass => pass.kind ≠ .unfiled || !pass.excludeIds.isEmpty)

/-- The loop over the newest assets; `cancelled` says before which of them shutdown comes. -/
def frontierFrom (config : StreamConfig) (cancelled : Nat → Bool) :
    Nat → RecentFrontier → List Item → Except String RecentFrontier
  | _, frontier, [] => .ok frontier
  | n, frontier, item :: rest =>
      if cancelled n then .ok frontier
      else
        match item with
        | .error error => .error error
        | .ok asset =>
            if (enumerationCreatedLowerBound config).any (fun boundary => asset.created < boundary)
            then .ok frontier
            else frontierFrom config cancelled (n + 1)
              ⟨frontier.assetIds.insert asset.assetRecordName,
                some ((frontier.oldestCreated.map (min · asset.created)).getD asset.created)⟩ rest

def buildRecentFrontier (passes : List AlbumPass) (config : StreamConfig) (streams : ZoneStreams)
    (cancelled : Nat → Bool) : Except String (Option RecentFrontier) :=
  match config.recent with
  | none => .ok none
  | some recent =>
      if shouldUseGlobalRecentFrontier passes config then
        (frontierFrom config cancelled 0 ⟨[], none⟩ (streams.libraryWide recent)).map some
      else .ok none

/-! ## passes -/

/-- How the pipeline of a pass takes its stream. -/
structure Consumption where
  /-- How many items it takes before it is stopped; `none` is all of them. -/
  taken : Option Nat
  /-- Errors that no item of the stream reports. -/
  otherErrors : Nat
  /-- The pass as a whole fails. -/
  failed : Bool
  reply : TokenReply

def assetsIn (items : List Item) : List ListedAsset := items.filterMap Except.toOption

def errorsIn (items : List Item) : Nat := items.countP (fun item => item.toOption.isNone)

/-- A full enumeration with its streams. -/
structure FullRun where
  passes : List AlbumPass
  config : StreamConfig
  controls : DownloadControls
  streams : ZoneStreams
  frontier : Option RecentFrontier
  repairTokenGaps : Bool

namespace FullRun

variable (run : FullRun)

def stream (index : Nat) : List Item :=
  run.streams.pass index (scopeFrontierLimit run.config run.frontier)

/-- The stream of a pass within the bounds. -/
def bounded (index : Nat) : List Item :=
  filterStreamToEnumerationBounds (run.stream index) run.config run.frontier

/-- What a pass takes of its stream. -/
def takenBy (consumption : Consumption) (index : Nat) : List Item :=
  match consumption.taken with
  | none => run.bounded index
  | some n => (run.bounded index).take n

def passRun (consumption : Consumption) (index : Nat) : Option PassRun :=
  if consumption.failed then none
  else some {
    enumerationComplete := consumption.taken.isNone
    enumerationErrors := errorsIn (run.takenBy consumption index) + consumption.otherErrors
    boundsTruncated := consumption.taken.isNone && (run.stream index).any (fun item =>
      !inBounds (streamCreatedLowerBound run.config run.frontier) item)
    reply := consumption.reply }

/-- The run with first passes that take their streams like this. -/
def env (consumption : Nat → Consumption) (base : RunEnv) : RunEnv :=
  { base with frontierBuilt := true, firstRun := fun i => run.passRun (consumption i) i }

/-- The asset record names that the album passes record. -/
def deferredIds (consumption : Nat → Consumption) : List String :=
  ((concurrentPasses run.passes).filter (fun entry => entry.1.kind = .album)).flatMap
    (fun entry => (assetsIn (run.takenBy (consumption entry.2) entry.2)).map (·.assetRecordName))

/-- The stream with which the deferred unfiled pass runs; nothing if it does not run. -/
def handed (consumption : Nat → Consumption) (base : RunEnv) (index : Nat) : List Item :=
  let env := run.env consumption base
  let entries := env.completion (concurrentPasses run.passes)
  match runPasses env entries ⟨⟨!run.passes.isEmpty, 0⟩, [], false, []⟩ with
  | none => []
  | some _ =>
      if deferredExclusionsComplete env entries then
        (run.bounded index).filter (fun item =>
          match item with
          | .ok asset => asset.assetRecordName ∉ run.deferredIds consumption
          | .error _ => true)
      else []

/-- Whether the enumeration of the run is reported complete; `none` is an error. -/
def reportsComplete (consumption : Nat → Consumption) (base : RunEnv) : Option Bool := do
  let env := run.env consumption base
  let round ← firstRound run.passes run.config.toDownloadConfig run.controls env
  if tokenAttemptAllowed run.controls then
    return (decideToken run.passes env run.repairTokenGaps
      round).round.streaming.enumerationComplete
  else return round.streaming.enumerationComplete

end FullRun

end Kei.FullEnumeration
