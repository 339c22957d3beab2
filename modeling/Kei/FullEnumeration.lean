import Kei.Lib.Str

/-!
# Kei.FullEnumeration

A full enumeration of a zone: the runs of its passes, the evidence their tokens
give, and the one round that repairs missing evidence.

The runs themselves belong to the download engine, so what each of them reports
comes from a `RunEnv`.  The function returns, next to its result, the runs it
made in order.
-/

namespace Kei.FullEnumeration

open Str

/-! ## passes and configuration -/

inductive PassKind where
  | album
  | smartFolder
  | unfiled
  deriving DecidableEq

structure AlbumPass where
  kind : PassKind
  /-- Empty for the library-wide pseudo album. -/
  name : String
  containerId : Option String
  excludeIds : List String
  deriving DecidableEq

/-- `pass_label` of the pass's configuration. -/
def AlbumPass.label (pass : AlbumPass) : String :=
  if pass.name = "" then "unfiled" else pass.name

structure PassKey where
  index : Nat
  kind : PassKind
  label : String
  deriving DecidableEq

/-- What a full enumeration reads of the download configuration. -/
structure DownloadConfig where
  /-- `requires_per_pass_paths` of the folder templates. -/
  requiresPerPassPaths : Bool
  hasStateDb : Bool
  recent : Option Nat
  /-- `skip_created_before` is set. -/
  skipCreatedBefore : Bool
  deriving DecidableEq

structure DownloadControls where
  dryRun : Bool
  onlyPrintFilenames : Bool
  deriving DecidableEq

def shouldRecordAlbumSnapshots (passes : List AlbumPass) (config : DownloadConfig)
    (controls : DownloadControls) : Bool :=
  !controls.dryRun && !controls.onlyPrintFilenames && config.hasStateDb && config.recent.isNone &&
    !config.skipCreatedBefore &&
    passes.any (fun pass => pass.kind = .album && pass.containerId.isSome)

/-- The unfiled pass that must wait for the albums, whose assets it leaves out. -/
def deferredUnfiledIndex (passes : List AlbumPass) : Option Nat :=
  if passes.any (fun pass => pass.kind = .album) then
    passes.findIdx? (fun pass => pass.kind = .unfiled && pass.excludeIds.isEmpty)
  else
    none

theorem deferredUnfiledIndex_eq_some {passes : List AlbumPass} {index : Nat}
    (h : deferredUnfiledIndex passes = some index) :
    ∃ pass, passes[index]? = some pass ∧ pass.kind = .unfiled := by
  unfold deferredUnfiledIndex at h
  split at h
  · obtain ⟨hlt, hpass, -⟩ := List.findIdx?_eq_some_iff_getElem.mp h
    simp only [Bool.and_eq_true, decide_eq_true_eq] at hpass
    exact ⟨passes[index], List.getElem?_eq_getElem hlt, hpass.1⟩
  · contradiction

/-! ## what a run reports -/

/-- What the receiver of a pass's token yields. -/
inductive TokenReply where
  /-- The sender is gone. -/
  | dropped
  | sent (token : Option String)
  deriving DecidableEq

/-- The run of one pass. -/
structure PassRun where
  enumerationComplete : Bool
  enumerationErrors : Nat
  /-- The run met an asset below its lower date bound and stopped there. -/
  boundsTruncated : Bool
  reply : TokenReply
  deriving DecidableEq

def PassRun.finished (run : PassRun) : Bool :=
  run.enumerationComplete && run.enumerationErrors == 0

/-- The part of a streaming result that the token logic reads. -/
structure StreamingResult where
  enumerationComplete : Bool
  enumerationErrors : Nat
  deriving DecidableEq

def mergeStreamingResult (combined : StreamingResult) (run : PassRun) : StreamingResult where
  enumerationComplete := combined.enumerationComplete && run.enumerationComplete
  enumerationErrors := combined.enumerationErrors + run.enumerationErrors

/-- What the runs and the calls around them report. -/
structure RunEnv where
  /-- The frontier of recent assets could be built. -/
  frontierBuilt : Bool
  /-- The first run of each pass; `none` is an error. -/
  firstRun : Nat → Option PassRun
  /-- The order in which concurrent passes finish. -/
  completion : List (AlbumPass × Nat) → List (AlbumPass × Nat)
  completion_perm : ∀ passes, (completion passes).Perm passes
  /-- The one run over all passes merged, and what each pass adds to it. -/
  mergedRun : Option StreamingResult
  mergedTruncated : Nat → Bool
  mergedReply : Nat → TokenReply
  /-- The configurations of a repair could be built. -/
  recoveryConfigsBuilt : Bool
  recoveryRun : Nat → Option PassRun
  /-- Count probes that failed. -/
  countProbeFailures : Nat
  /-- The reason with which the outcome came out blocked, if it did; `none` is an error. -/
  downloadOutcome : Option (Option String)

/-! ## evidence -/

inductive PassTokenResult where
  | present (token : String)
  | missing
  | blank
  | receiverDropped
  | enumerationIncomplete
  deriving DecidableEq

def PassTokenResult.token? : PassTokenResult → Option String
  | .present token => some token
  | _ => none

structure PassTokenObservation where
  pass : PassKey
  result : PassTokenResult
  deriving DecidableEq

inductive TokenGap where
  | missing
  | blank
  | receiverDropped
  | enumerationIncomplete
  | mismatch
  deriving DecidableEq

inductive ZoneTokenEvidence where
  | complete (token : String)
  | recoverable (passes : List PassKey) (reason : TokenGap)
  | incomplete (reason : TokenGap)
  deriving DecidableEq

/-- The result that a reply stands for. -/
def replyResult : TokenReply → PassTokenResult
  | .dropped => .receiverDropped
  | .sent none => .missing
  | .sent (some token) => if trim token = "" then .blank else .present (trim token)

def passResult (enumerationComplete : Bool) (reply : TokenReply) : PassTokenResult :=
  if enumerationComplete then replyResult reply else .enumerationIncomplete

/-- The passes whose token is not there. -/
def passesWithoutTokens (observations : List PassTokenObservation) : List PassKey :=
  (observations.filter (fun o => o.result.token?.isNone)).map (·.pass)

def tokensOf (observations : List PassTokenObservation) : List String :=
  observations.filterMap (fun o => o.result.token?)

def hasResult (observations : List PassTokenObservation) (result : PassTokenResult) : Bool :=
  observations.any (fun o => o.result = result)

def classifyZoneTokenEvidence (observations : List PassTokenObservation) : ZoneTokenEvidence :=
  if hasResult observations .enumerationIncomplete then
    .recoverable (passesWithoutTokens observations) .enumerationIncomplete
  else if hasResult observations .receiverDropped then
    .recoverable (passesWithoutTokens observations) .receiverDropped
  else if hasResult observations .blank then
    .recoverable (passesWithoutTokens observations) .blank
  else if hasResult observations .missing then
    .recoverable (passesWithoutTokens observations) .missing
  else
    match tokensOf observations with
    | [] => .incomplete .missing
    | first :: rest =>
        if rest.all (fun token => token = first) then
          .complete first
        else
          .recoverable (observations.map (·.pass)) .mismatch

/-- Why a token was held back. -/
def tokenBlockReason : TokenGap → String
  | .receiverDropped => "kei_internal_token_receiver_dropped"
  | .blank => "icloud_blank_sync_token"
  | .mismatch => "icloud_sync_token_mismatch"
  | .missing | .enumerationIncomplete => "icloud_sync_token_missing"

/-! ## the first round -/

/-- What the first round leaves for the token logic. -/
structure Round where
  streaming : StreamingResult
  observations : List PassTokenObservation
  boundsTruncated : Bool
  /-- The runs so far, with the index of their pass. -/
  runs : List (Nat × PassRun)

def keyOf (entry : AlbumPass × Nat) : PassKey := ⟨entry.2, entry.1.kind, entry.1.label⟩

/-- The observation of a run of its own. -/
def observe (entry : AlbumPass × Nat) (run : PassRun) : PassTokenObservation :=
  ⟨keyOf entry, passResult run.finished run.reply⟩

/-- A run joins the round. -/
def Round.add (round : Round) (entry : AlbumPass × Nat) (run : PassRun) : Round where
  streaming := mergeStreamingResult round.streaming run
  observations := round.observations ++ [observe entry run]
  boundsTruncated := round.boundsTruncated || run.boundsTruncated
  runs := round.runs ++ [(entry.2, run)]

/-- The passes of the list with their indexes, but the deferred one. -/
def concurrentPasses (passes : List AlbumPass) : List (AlbumPass × Nat) :=
  passes.zipIdx.filter (fun entry => some entry.2 ≠ deferredUnfiledIndex passes)

theorem mem_concurrentPasses {passes : List AlbumPass} {e : AlbumPass × Nat} :
    e ∈ concurrentPasses passes ↔ passes[e.2]? = some e.1 ∧
      deferredUnfiledIndex passes ≠ some e.2 := by
  unfold concurrentPasses
  rw [List.mem_filter, List.mem_zipIdx_iff_getElem?, decide_eq_true_eq]
  exact and_congr_right (fun _ => ne_comm)

/-- Run passes; an error of any of them ends the enumeration. -/
def runPasses (env : RunEnv) : List (AlbumPass × Nat) → Round → Option Round
  | [], round => some round
  | entry :: rest, round => do
      let run ← env.firstRun entry.2
      runPasses env rest (round.add entry run)

/-- The albums whose assets the deferred pass leaves out were all enumerated. -/
def deferredExclusionsComplete (env : RunEnv) (entries : List (AlbumPass × Nat)) : Bool :=
  entries.all (fun entry =>
    decide (entry.1.kind ≠ .album) || (env.firstRun entry.2).any (·.finished))

/-- One run for each pass, the deferred one last. -/
def perPassRound (passes : List AlbumPass) (env : RunEnv) : Option Round := do
  let entries := env.completion (concurrentPasses passes)
  let round ← runPasses env entries ⟨⟨!passes.isEmpty, 0⟩, [], false, []⟩
  match deferredUnfiledIndex passes with
  | none => return round
  | some index =>
      if deferredExclusionsComplete env entries then
        match passes[index]? with
        | none => return round
        | some pass => runPasses env [(pass, index)] round
      else
        return { round with streaming.enumerationComplete := false }

/-- One run over the streams of all passes. -/
def mergedRound (passes : List AlbumPass) (env : RunEnv) : Option Round := do
  let result ← env.mergedRun
  return {
    streaming := result,
    observations := passes.zipIdx.map (fun entry =>
      ⟨keyOf entry, passResult true (env.mergedReply entry.2)⟩),
    boundsTruncated := passes.zipIdx.any (fun entry => env.mergedTruncated entry.2),
    runs := passes.zipIdx.map (fun entry =>
      (entry.2, ⟨result.enumerationComplete, result.enumerationErrors,
        env.mergedTruncated entry.2, env.mergedReply entry.2⟩)) }

def needsPerPass (passes : List AlbumPass) (config : DownloadConfig)
    (controls : DownloadControls) : Bool :=
  config.requiresPerPassPaths || shouldRecordAlbumSnapshots passes config controls

def firstRound (passes : List AlbumPass) (config : DownloadConfig) (controls : DownloadControls)
    (env : RunEnv) : Option Round :=
  if needsPerPass passes config controls then perPassRound passes env else mergedRound passes env

/-! ## the repair -/

/-- The whole enumeration is repeated when it did not complete, unless a bound cut it. -/
def repairEntireEnumeration (round : Round) : Bool :=
  (!round.streaming.enumerationComplete || 0 < round.streaming.enumerationErrors) &&
    !round.boundsTruncated

def initialEvidence (round : Round) : ZoneTokenEvidence :=
  if round.boundsTruncated then
    .incomplete .enumerationIncomplete
  else if repairEntireEnumeration round then
    .recoverable (round.observations.map (·.pass)) .enumerationIncomplete
  else
    classifyZoneTokenEvidence round.observations

/-- Replace the result of the first observation of a pass. -/
def updateObservation (index : Nat) (result : PassTokenResult) :
    List PassTokenObservation → List PassTokenObservation
  | [] => []
  | o :: rest =>
      if o.pass.index = index then
        { o with result := result } :: rest
      else
        o :: updateObservation index result rest

/-- What the repair carries from pass to pass. -/
structure Recovery where
  enumerationComplete : Bool
  enumerationErrors : Nat
  completedPasses : Nat
  round : Round

/-- Run one pass again. -/
def recoverPass (passes : List AlbumPass) (env : RunEnv) (state : Recovery) (key : PassKey) :
    Recovery :=
  match passes[key.index]? with
  | none => { state with enumerationComplete := false }
  | some _ =>
      if env.recoveryConfigsBuilt then
        match env.recoveryRun key.index with
        | none =>
            { state with
              enumerationComplete := false,
              enumerationErrors := state.enumerationErrors + 1,
              round := { state.round with
                observations :=
                  updateObservation key.index .enumerationIncomplete state.round.observations } }
        | some run =>
            { enumerationComplete := state.enumerationComplete && run.enumerationComplete,
              enumerationErrors := state.enumerationErrors + run.enumerationErrors,
              completedPasses := state.completedPasses + 1,
              round := {
                streaming := mergeStreamingResult state.round.streaming run,
                observations := updateObservation key.index (passResult run.finished run.reply)
                  state.round.observations,
                boundsTruncated := state.round.boundsTruncated || run.boundsTruncated,
                runs := state.round.runs ++ [(key.index, run)] } }
      else
        { state with enumerationComplete := false }

/-- Run the passes again, and settle what the enumeration as a whole has become. -/
def recoverPasses (passes : List AlbumPass) (env : RunEnv) (round : Round)
    (retryPasses : List PassKey) : Round :=
  let state := retryPasses.foldl (recoverPass passes env) ⟨true, 0, 0, round⟩
  let allRan := state.completedPasses = retryPasses.length
  if repairEntireEnumeration round then
    { state.round with
      streaming := {
        enumerationComplete := state.enumerationComplete && allRan,
        enumerationErrors := state.enumerationErrors +
          (if allRan then 0 else retryPasses.length - state.completedPasses) } }
  else
    state.round

/-! ## the token -/

/-- What the token logic decides. -/
structure TokenDecision where
  syncToken : Option String
  blockReason : Option String := none
  checkpointRetryPasses : List PassKey := []
  sameCycleRecoveryAttempts : Nat := 0
  sameCycleRecoverySuccesses : Nat := 0
  /-- The round as the decision leaves it. -/
  round : Round

def finishedRound (round : Round) : Bool :=
  round.streaming.enumerationComplete && round.streaming.enumerationErrors == 0

/-- The decision after a repair. -/
def recoveredDecision (round : Round) : TokenDecision :=
  match classifyZoneTokenEvidence round.observations with
  | .complete token =>
      if finishedRound round then
        { syncToken := some token, sameCycleRecoveryAttempts := 1,
          sameCycleRecoverySuccesses := 1, round := round }
      else
        { syncToken := none, blockReason := some "icloud_sync_token_missing",
          sameCycleRecoveryAttempts := 1, round := round }
  | .recoverable passes reason =>
      { syncToken := none, blockReason := some (tokenBlockReason reason),
        checkpointRetryPasses := passes, sameCycleRecoveryAttempts := 1, round := round }
  | .incomplete reason =>
      { syncToken := none, blockReason := some (tokenBlockReason reason),
        checkpointRetryPasses := round.observations.map (·.pass), sameCycleRecoveryAttempts := 1,
        round := round }

def decideToken (passes : List AlbumPass) (env : RunEnv) (repairTokenGaps : Bool)
    (round : Round) : TokenDecision :=
  match initialEvidence round with
  | .complete token => { syncToken := some token, round := round }
  | .recoverable retryPasses reason =>
      if repairTokenGaps then
        recoveredDecision (recoverPasses passes env round retryPasses)
      else
        { syncToken := none, blockReason := some (tokenBlockReason reason),
          checkpointRetryPasses := retryPasses, round := round }
  | .incomplete reason =>
      { syncToken := none, blockReason := some (tokenBlockReason reason),
        checkpointRetryPasses := round.observations.map (·.pass), round := round }

/-! ## the result -/

/-- How many receivers ended in which way; kept when a token was attempted. -/
structure ReceiverCounts where
  expected : Nat
  withToken : Nat
  missing : Nat
  blank : Nat
  dropped : Nat
  uniqueValues : Nat
  deriving DecidableEq

def receiverCounts (observations : List PassTokenObservation) : ReceiverCounts where
  expected := observations.length
  withToken := (tokensOf observations).length
  missing := (observations.filter (fun o => o.result = .missing)).length
  blank := (observations.filter (fun o => o.result = .blank)).length
  dropped := (observations.filter (fun o => o.result = .receiverDropped)).length
  uniqueValues := (tokensOf observations).eraseDups.length

structure SyncResult where
  syncToken : Option String
  receivers : Option ReceiverCounts
  checkpointRetryPasses : List PassKey
  sameCycleRecoveryAttempts : Nat
  sameCycleRecoverySuccesses : Nat
  /-- The reason with which the token is blocked, if it is. -/
  syncTokenBlocked : Option String
  /-- The runs of this call, oldest first. -/
  runs : List (Nat × PassRun)

def tokenAttemptAllowed (controls : DownloadControls) : Bool :=
  !controls.onlyPrintFilenames && !controls.dryRun

/-- A bound kept the enumeration from its end. -/
def boundedLimitTruncated (config : DownloadConfig) (eligible : Bool) (decision : TokenDecision) :
    Bool :=
  (config.recent.isSome || config.skipCreatedBefore) &&
    (decision.round.boundsTruncated ||
      (eligible && decision.syncToken.isNone &&
        (decision.blockReason == some "icloud_sync_token_missing" ||
          decision.blockReason == some "kei_internal_token_receiver_dropped" ||
          decision.blockReason == some "sync_token_unavailable" ||
          decision.blockReason.isNone)))

/-- The block the result carries. -/
def blockedReason (config : DownloadConfig) (controls : DownloadControls) (env : RunEnv)
    (outcomeBlocked : Option String) (decision : TokenDecision) : Option String :=
  let allowed := tokenAttemptAllowed controls
  let eligible := allowed && finishedRound decision.round
  if 0 < env.countProbeFailures && eligible && decision.syncToken.isSome then
    outcomeBlocked
  else if boundedLimitTruncated config eligible decision && allowed &&
      decision.round.streaming.enumerationErrors == 0 then
    some (if config.recent.isSome then "recent_limited_full_enumeration"
      else "date_bounded_full_enumeration")
  else if eligible && decision.syncToken.isNone then
    some (decision.blockReason.getD "sync_token_unavailable")
  else if 0 < env.countProbeFailures && outcomeBlocked.isNone then
    some "icloud_album_count_error"
  else if allowed && decision.syncToken.isNone then
    decision.blockReason <|> outcomeBlocked
  else
    outcomeBlocked

/-- A full enumeration; `none` is an error. -/
def downloadPhotosFullWithTokenPolicy (passes : List AlbumPass) (config : DownloadConfig)
    (controls : DownloadControls) (env : RunEnv) (repairTokenGaps : Bool) : Option SyncResult :=
  if env.frontierBuilt then do
    let round ← firstRound passes config controls env
    let decision : TokenDecision :=
      if tokenAttemptAllowed controls then
        decideToken passes env repairTokenGaps round
      else
        { syncToken := none, round := round }
    let outcomeBlocked ← env.downloadOutcome
    return {
      syncToken := decision.syncToken,
      receivers :=
        if tokenAttemptAllowed controls then
          some (receiverCounts decision.round.observations)
        else
          none,
      checkpointRetryPasses := decision.checkpointRetryPasses,
      sameCycleRecoveryAttempts := decision.sameCycleRecoveryAttempts,
      sameCycleRecoverySuccesses := decision.sameCycleRecoverySuccesses,
      syncTokenBlocked := blockedReason config controls env outcomeBlocked decision,
      runs := decision.round.runs }
  else
    none

end Kei.FullEnumeration
