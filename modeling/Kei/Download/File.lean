import Kei.Download.Content
import Kei.Download.Finalize
import Kei.Lib.Rely
import Mathlib.Logic.Function.Basic

/-!
# Kei.Download.File

Landing a download: the temporary file, the attempt that fills it, and its
publication at the final path.

An attempt is a process.  Its calls go to a file system of directory entries
and inodes, to the server and to the state database, and `answer` says what
each of them does.  Any call may fail, and the process may stop between any two
of them.
-/

namespace Kei.Download

open Proc

/-! ## the world -/

structure File where
  bytes : Content
  /-- The time of modification, in seconds. -/
  mtime : Int

/-- What a server sends for a range of what it has. -/
structure Server where
  /-- The status and the body of its response to a request from an offset on. -/
  respond : (resumeFrom : Option Nat) → (status : Nat) → (body : Content) → Nat × Content

/-- A server that has `content` and honours ranges. -/
def Server.of (content : Content) : Server where
  respond resumeFrom status _ :=
    match resumeFrom with
    | some offset =>
        if status = 206 then
          if offset < content.length then (206, content.drop offset) else (416, [])
        else (status, content)
    | none => (status, content)

structure World where
  /-- The inode that a path names. -/
  entries : Path → Option Nat
  files : Nat → File
  /-- An inode that no path and no handle refers to, as none after it is. -/
  next : Nat
  /-- The temporary file that an attempt has open. -/
  handles : Nat → Option Nat
  /-- What is still to come of the response to an attempt. -/
  streams : Nat → Content
  now : Int
  /-- The temporary files that the state database says are kei's, with the time of the claim. -/
  ownedTempFiles : List (Path × Int)
  lastSyncCompleted : Option Int

/-- What is at a path. -/
def World.bytesAt (w : World) (path : Path) : Option Content :=
  (w.entries path).map (fun i => (w.files i).bytes)

def World.setEntry (w : World) (path : Path) (inode : Option Nat) : World :=
  { w with entries := Function.update w.entries path inode }

def World.setFile (w : World) (inode : Nat) (file : File) : World :=
  { w with files := Function.update w.files inode file }

/-- A new file at a path. -/
def World.create (w : World) (path : Path) (bytes : Content) : World :=
  { (w.setFile w.next ⟨bytes, w.now⟩).setEntry path (some w.next) with next := w.next + 1 }

def World.later (w : World) (elapsed : Nat) : World := { w with now := w.now + elapsed }

/-- Time passes. -/
def Waits (w w' : World) : Prop := ∃ elapsed : Nat, w' = w.later elapsed

def fingerprintOf (host : LandHost) (bytes : Content) : ExistingFileFingerprint :=
  ⟨bytes.length, host.sha256 bytes⟩

/-! ## calls -/

structure DownloadResponse where
  status : Nat
  contentLength : Option Nat
  contentRange : Option String
  contentType : Option String

/-- The next piece of a body. -/
inductive Chunk where
  | data (bytes : Content)
  | finished
  | broken

inductive OpenResult where
  | opened
  | alreadyExists
  | failed

/-- What became of a rename. -/
inductive RenameResult where
  | renamed
  | alreadyExists
  | notFound
  | unsupported
  | failed

inductive RemoveResult where
  | removed
  | notFound
  | failed
  deriving DecidableEq

inductive Call where
  | metadata (path : Path)
  | fetch (who : Nat) (server : Server) (resumeFrom : Option Nat)
  | removeFile (path : Path)
  | createNew (who : Nat) (path : Path)
  | openAppend (who : Nat) (path : Path)
  | isCancelled
  | nextChunk (who : Nat)
  | writeAll (who : Nat) (chunk : Content)
  | syncData (who : Nat)
  | close (who : Nat)
  | readFile (path : Path)
  | renameNoReplace (source target : Path)
  | hardLink (source target : Path)
  | tryExists (path : Path)
  | renameExchange (a b : Path)
  | isEmbedWritablePath (path : Path)
  | embedMetadata (path : Path)
  | writeSidecar (path : Path)
  | setFileMtime (path : Path) (timestamp : Int)
  | claimTempFile (path : Path)
  | retireTempFiles (paths : List Path)
  | lastSyncCompleted
  | ownedTempFilesBefore (cutoff : Int)
  | openConfinedRegularFile (root path : Path)
  | now

/-- What cleanup finds at a path that kei owns. -/
inductive ConfinedFileOpen where
  | outsideRoot
  | retire
  | regular (modifiedSecs : Int)

abbrev Resp : Call → Type
  | .metadata _ => Option (Nat × Bool)
  | .fetch _ _ _ => Option DownloadResponse
  | .removeFile _ => RemoveResult
  | .createNew _ _ => OpenResult
  | .openAppend _ _ => Bool
  | .isCancelled => Bool
  | .nextChunk _ => Chunk
  | .writeAll _ _ => Bool
  | .syncData _ => Bool
  | .close _ => Unit
  | .readFile _ => Option Content
  | .renameNoReplace _ _ => RenameResult
  | .hardLink _ _ => OpenResult
  | .tryExists _ => Bool
  | .renameExchange _ _ => RenameResult
  | .isEmbedWritablePath _ => Bool
  | .embedMetadata _ => Bool
  | .writeSidecar _ => Bool
  | .setFileMtime _ _ => Bool
  | .claimTempFile _ => Bool
  | .retireTempFiles _ => Bool
  | .lastSyncCompleted => Option Int
  | .ownedTempFilesBefore _ => Option (List Path)
  | .openConfinedRegularFile _ _ => Option ConfinedFileOpen
  | .now => Int

/-- What the surroundings decide about a call. -/
structure Choice where
  fails : Bool
  unsupported : Bool
  cancelled : Bool
  response : DownloadResponse
  body : Content
  /-- How many bytes come, or are written before a failure. -/
  count : Nat
  /-- The way in which the metadata writer writes. -/
  seed : Nat
  /-- The seconds that pass before the call. -/
  elapsed : Nat

/-! ## what the calls do -/

/-- Temporary files older than this are not resumed. -/
def stalePartFileSecs : Int := 3600

section answers

variable (host : LandHost)

def metadataAnswer (w : World) (choice : Choice) (path : Path) : Option (Nat × Bool) :=
  if choice.fails then none
  else (w.entries path).map (fun i =>
    ((w.files i).bytes.length,
      choice.unsupported || decide (stalePartFileSecs < w.now - (w.files i).mtime)))

def fetchAnswer (w : World) (choice : Choice) (who : Nat) (server : Server)
    (resumeFrom : Option Nat) : Option DownloadResponse × World :=
  if choice.fails then (none, w)
  else
    let (status, body) := server.respond resumeFrom choice.response.status choice.body
    (some { choice.response with status := status },
      { w with streams := Function.update w.streams who body })

def removeAnswer (w : World) (choice : Choice) (path : Path) : RemoveResult × World :=
  if choice.fails then (.failed, w)
  else if (w.entries path).isNone then (.notFound, w)
  else (.removed, w.setEntry path none)

def createAnswer (w : World) (choice : Choice) (who : Nat) (path : Path) : OpenResult × World :=
  if choice.fails then (.failed, w)
  else if (w.entries path).isSome then (.alreadyExists, w)
  else
    (.opened, { w.create path [] with
      handles := Function.update w.handles who (some w.next) })

def openAppendAnswer (w : World) (choice : Choice) (who : Nat) (path : Path) : Bool × World :=
  if choice.fails then (false, w)
  else
    match w.entries path with
    | none => (false, w)
    | some i => (true, { w with handles := Function.update w.handles who (some i) })

def nextChunkAnswer (w : World) (choice : Choice) (who : Nat) : Chunk × World :=
  if choice.fails then (.broken, w)
  else if (w.streams who).isEmpty then (.finished, w)
  else
    (.data ((w.streams who).take choice.count),
      { w with streams := Function.update w.streams who ((w.streams who).drop choice.count) })

/-- A failing write leaves the front of the chunk behind. -/
def writeAnswer (w : World) (choice : Choice) (who : Nat) (chunk : Content) : Bool × World :=
  match w.handles who with
  | none => (false, w)
  | some i =>
      let written := if choice.fails then chunk.take choice.count else chunk
      (!choice.fails, w.setFile i ⟨(w.files i).bytes ++ written, w.now⟩)

def renameNoReplaceAnswer (w : World) (choice : Choice) (source target : Path) :
    RenameResult × World :=
  if choice.unsupported then (.unsupported, w)
  else if choice.fails then (.failed, w)
  else if (w.entries source).isNone then (.notFound, w)
  else if (w.entries target).isSome then (.alreadyExists, w)
  else (.renamed, (w.setEntry source none).setEntry target (w.entries source))

def hardLinkAnswer (w : World) (choice : Choice) (source target : Path) : OpenResult × World :=
  if choice.fails || (w.entries source).isNone then (.failed, w)
  else if (w.entries target).isSome then (.alreadyExists, w)
  else (.opened, w.setEntry target (w.entries source))

def exchangeAnswer (w : World) (choice : Choice) (a b : Path) : RenameResult × World :=
  if choice.unsupported then (.unsupported, w)
  else if choice.fails then (.failed, w)
  else if (w.entries a).isNone || (w.entries b).isNone then (.notFound, w)
  else (.renamed, (w.setEntry a (w.entries b)).setEntry b (w.entries a))

/-- The writer prepares a copy and puts it in place of the file. -/
def embedAnswer (w : World) (choice : Choice) (path : Path) : Bool × World :=
  match if choice.unsupported then none else (w.bytesAt path).bind (host.embed choice.seed) with
  | none => (false, w)
  | some output => (!choice.fails, w.create path output)

def setMtimeAnswer (w : World) (choice : Choice) (path : Path) (timestamp : Int) : Bool × World :=
  match if choice.fails then none else w.entries path with
  | none => (false, w)
  | some i => (true, w.setFile i { w.files i with mtime := timestamp })

/-- Links on the way to the file, and what is no file, are not followed. -/
def confinedAnswer (w : World) (choice : Choice) (root path : Path) : Option ConfinedFileOpen :=
  if !(components root).isPrefixOf (components path) then some .outsideRoot
  else if choice.fails then none
  else
    match if choice.unsupported then none else w.entries path with
    | none => some .retire
    | some i => some (.regular (w.files i).mtime)

/-- What a call does at once. -/
def act (w : World) (call : Call) (choice : Choice) : Resp call × World :=
  match call with
  | .metadata path => (metadataAnswer w choice path, w)
  | .fetch who server resumeFrom => fetchAnswer w choice who server resumeFrom
  | .removeFile path => removeAnswer w choice path
  | .createNew who path => createAnswer w choice who path
  | .openAppend who path => openAppendAnswer w choice who path
  | .isCancelled => (choice.cancelled, w)
  | .nextChunk who => nextChunkAnswer w choice who
  | .writeAll who chunk => writeAnswer w choice who chunk
  | .syncData _ => (!choice.fails, w)
  | .close who => ((), { w with handles := Function.update w.handles who none })
  | .readFile path => (if choice.fails then none else w.bytesAt path, w)
  | .renameNoReplace source target => renameNoReplaceAnswer w choice source target
  | .hardLink source target => hardLinkAnswer w choice source target
  | .tryExists path => (!choice.fails && (w.entries path).isSome, w)
  | .renameExchange a b => exchangeAnswer w choice a b
  | .isEmbedWritablePath path => (host.isEmbedWritablePath path (w.bytesAt path), w)
  | .embedMetadata path => embedAnswer host w choice path
  | .writeSidecar _ => (!choice.fails, w)
  | .setFileMtime path timestamp => setMtimeAnswer w choice path timestamp
  | .claimTempFile path =>
      if choice.fails then (false, w)
      else (true, { w with
        ownedTempFiles :=
          w.ownedTempFiles.filter (fun owned => owned.1 ≠ path) ++ [(path, w.now)] })
  | .retireTempFiles paths =>
      if choice.fails then (false, w)
      else (true, { w with
        ownedTempFiles := w.ownedTempFiles.filter (fun owned => owned.1 ∉ paths) })
  | .lastSyncCompleted => (if choice.fails then none else w.lastSyncCompleted, w)
  | .ownedTempFilesBefore cutoff =>
      (if choice.fails then none
        else some ((w.ownedTempFiles.filter (fun owned => owned.2 < cutoff)).map (·.1)), w)
  | .openConfinedRegularFile root path => (confinedAnswer w choice root path, w)
  | .now => (w.now, w)

/-- What a call answers and does, after a while. -/
def answer (w : World) (call : Call) (choice : Choice) : Resp call × World :=
  act host (w.later choice.elapsed) call choice

@[simp] theorem act_now {w : World} {call : Call} {choice : Choice} :
    (act host w call choice).2.now = w.now := by
  cases call <;> simp only [act, fetchAnswer, removeAnswer, createAnswer, openAppendAnswer,
    nextChunkAnswer, writeAnswer, renameNoReplaceAnswer, hardLinkAnswer, exchangeAnswer,
    embedAnswer, setMtimeAnswer] <;> grind [World.setEntry, World.setFile, World.create]

end answers

/-- A call that works, and brings `count` bytes. -/
def works (count : Nat) : Choice where
  fails := false
  unsupported := false
  cancelled := false
  response := ⟨200, none, none, none⟩
  body := []
  count := count
  seed := 0
  elapsed := 0

def emptyWorld : World where
  entries _ := none
  files _ := ⟨[], 0⟩
  next := 0
  handles _ := none
  streams _ := []
  now := 0
  ownedTempFiles := []
  lastSyncCompleted := none

/-! ## an attempt -/

/-- What an attempt is made of. -/
structure Attempt where
  /-- The handle and the response are those of this attempt. -/
  who : Nat
  server : Server
  downloadPath : Path
  partPath : Path
  skipRename : Bool
  expectedSize : Option Nat
  publication : FinalPublication
  hasShutdownToken : Bool

/-- A process that may fail. -/
abbrev Landing := ExceptT DownloadError (Proc Call Resp)

/-- Make a call. -/
def ask (call : Call) : Landing (Resp call) := ExceptT.lift (perform call)

/-- Remove a file, and go on whether that worked or not. -/
def logRemove (path : Path) : Landing Unit := do
  let _ ← ask (.removeFile path)

/-- Remove the temporary file and stop if the condition fails. -/
def checkOrRemove (part : Path) (condition : Bool) (error : DownloadError) : Landing Unit :=
  if condition then pure ()
  else do
    logRemove part
    throw error

/-- Where the body goes. -/
inductive Start where
  | resume (offset : Nat)
  | restart
  deriving DecidableEq

def Start.offset : Start → Nat
  | .resume offset => offset
  | .restart => 0

namespace Attempt

variable (a : Attempt)

/-- The length of a temporary file that is not stale. -/
def resumeOffset : Landing Nat := do
  match ← ask (.metadata a.partPath) with
  | some (len, false) => return len
  | _ => return 0

def fetch (resumeOffset : Nat) : Landing DownloadResponse := do
  match ← ask (.fetch a.who a.server (if 0 < resumeOffset then some resumeOffset else none)) with
  | some response => return response
  | none => throw (.http 0 none 0)

def startOf (resumeOffset : Nat) (response : DownloadResponse) : Landing Start :=
  if response.status = 206 && 0 < resumeOffset then pure (.resume resumeOffset)
  else if 200 ≤ response.status && response.status < 300 then pure .restart
  else throw (.httpStatus response.status)

def checkContentType (response : DownloadResponse) : Landing Unit :=
  match response.contentType.bind (fun ct => (rejectingContentTypeReason ct).map (ct, ·)) with
  | none => pure ()
  | some (ct, reason) => do
      logRemove a.partPath
      throw (.invalidContent ("server returned " ++ reason ++ " content-type: " ++ ct))

/-- `u64::saturating_add`. -/
def saturatingAdd (m n : Nat) : Nat := min (m + n) (2 ^ 64 - 1)

/-- A resumed range starts where the temporary file ends and has the expected total. -/
def checkRange (response : DownloadResponse) : Start → Landing Unit
  | .restart => pure ()
  | .resume offset => do
      MonadExcept.ofExcept (validateResumeContentRange response.contentRange offset)
      match response.contentLength, a.expectedSize with
      | some length, some expected =>
          checkOrRemove a.partPath (saturatingAdd offset length = expected)
            (.contentLengthMismatch expected (saturatingAdd offset length))
      | _, _ => pure ()

/-- A new file for a body from its beginning, the temporary file for the rest of one. -/
def openPart : Start → Landing Unit
  | .restart => do
      logRemove a.partPath
      match ← ask (.createNew a.who a.partPath) with
      | .opened => pure ()
      | .alreadyExists => throw (.other ("Another kei process is already writing " ++ a.partPath))
      | .failed => throw (.other "Could not open temporary download file")
  | .resume _ => do
      match ← ask (.openAppend a.who a.partPath) with
      | true => pure ()
      | false => throw (.other "Could not open temporary download file")

/-- The shutdown token is looked at before every chunk. -/
def checkCancelled (bytesWritten : Nat) : Landing Unit :=
  if a.hasShutdownToken then do
    match ← ask .isCancelled with
    | true => throw (.interrupted bytesWritten)
    | false => pure ()
  else pure ()

def syncPart : Landing Unit := do
  match ← ask (.syncData a.who) with
  | true => pure ()
  | false => throw .disk

/-- Write the body to the open file; `fuel` bounds the number of its pieces. -/
def streamBody (response : DownloadResponse) : (fuel : Nat) → (bytesWritten : Nat) → Landing Nat
  | 0, _ => (Proc.stop : Proc Call Resp (Except DownloadError Nat))
  | fuel + 1, bytesWritten => do
      a.checkCancelled bytesWritten
      match ← ask (.nextChunk a.who) with
      | .broken => throw (.http response.status response.contentLength bytesWritten)
      | .finished => do
          a.syncPart
          return bytesWritten
      | .data chunk => do
          match ← ask (.writeAll a.who chunk) with
          | true => streamBody response fuel (bytesWritten + chunk.length)
          | false => throw .disk

/-- The temporary file is kept for the next attempt only after an error of the transfer. -/
def closePart (result : Except DownloadError Nat) : Landing Nat := do
  ask (.close a.who)
  match result with
  | .ok bytesWritten => return bytesWritten
  | .error error => do
      checkOrRemove a.partPath (error.isRetryable || error.isInterrupted) error
      throw error

/-- The size is the expected one, if one is known. -/
def checkSize (expected : Option Nat) (received : Nat) : Landing Unit :=
  match expected with
  | some expected =>
      checkOrRemove a.partPath (received = expected) (.contentLengthMismatch expected received)
  | none => pure ()

/-- Check the first bytes of the temporary file, and say what it holds. -/
def validatePart : Landing Content := do
  match ← ask (.readFile a.partPath) with
  | none => do
      logRemove a.partPath
      throw .disk
  | some content =>
      match validateDownloadedContent content a.downloadPath with
      | .ok _ => return content
      | .error error => do
          logRemove a.partPath
          throw error

end Attempt

/-! ## errors of a publication -/

inductive ConditionalPublishTargetChanged where
  | afterPlanning
  | duringPublication
  | unverifiable
  deriving DecidableEq

/-- A layer of an error. -/
inductive PublishContext where
  | targetChanged (kind : ConditionalPublishTargetChanged)
  | mustRetainPaths (paths : List Path)
  | finalPathCollision
  | io (notFound : Bool)
  | message (text : String)
  deriving DecidableEq

/-- The layers of an error, the outermost first. -/
abbrev PublishError := List PublishContext

structure ConditionalPublishErrorDisposition where
  targetChanged : Bool
  retainedPaths : List Path

def classifyConditionalPublishError (error : PublishError) :
    ConditionalPublishErrorDisposition where
  targetChanged := error.any (fun context =>
    match context with
    | .targetChanged _ => true
    | .io notFound => notFound
    | _ => false)
  retainedPaths := (error.findSome? (fun context =>
    match context with
    | .mustRetainPaths paths => some paths
    | _ => none)).getD []

abbrev Publishing := ExceptT PublishError (Proc Call Resp)

def request (call : Call) : Publishing (Resp call) := ExceptT.lift (perform call)

/-- Put layers around the errors of a program. -/
def withContext (contexts : List PublishContext) (program : Publishing α) : Publishing α :=
  ExceptT.adapt (fun error => contexts ++ error) program

/-- `fingerprint_regular_file`. -/
def fingerprint (host : LandHost) (path : Path) : Publishing ExistingFileFingerprint := do
  match ← request (.readFile path) with
  | some bytes => return fingerprintOf host bytes
  | none => throw [.io false]

/-- Stop with the error unless the condition holds. -/
def ensure (condition : Bool) (error : PublishError) : Publishing Unit :=
  if condition then pure () else throw error

/-! ## replacing a file -/

section replace

variable (host : LandHost) (part final : Path)

/-- An exchange that failed without a sign of a change of the final path. -/
def exchangeFailed (expected : ExistingFileFingerprint) : Publishing Path := do
  match ← request (.readFile final) with
  | some bytes =>
      if fingerprintOf host bytes = expected then throw [.io false]
      else throw [.targetChanged .unverifiable, .io false]
  | none => throw [.targetChanged .unverifiable, .io false]

/-- On Linux the displaced file is at the path of the replacement. -/
def exchangeRepairFiles (expected : ExistingFileFingerprint) : Publishing Path := do
  match ← request (.renameExchange part final) with
  | .renamed => return part
  | .notFound => throw [.targetChanged .unverifiable, .io true]
  | .alreadyExists | .unsupported | .failed => exchangeFailed host final expected

/-- The approved bytes are at the final path. -/
def checkInstalled (displaced : Path) :
    Option ExistingFileFingerprint → Publishing Unit
  | none => pure ()
  | some expectedReplacement =>
      withContext [.mustRetainPaths [displaced], .targetChanged .unverifiable] (do
        let installed ← fingerprint host final
        ensure (installed = expectedReplacement)
          [.message "Published replacement no longer matches the validated bytes"])

def retainedRestorePaths (displaced : Path) : List Path :=
  if displaced = part then [part] else [part, displaced]

/-- Give the displaced file back; `false` when the replacement is not at the final path. -/
def restoreRepairTargetIfUnchanged (displaced : Path) (replacement : ExistingFileFingerprint) :
    Publishing Bool := do
  match ← request (.readFile final) with
  | none => return false
  | some bytes =>
      if fingerprintOf host bytes = replacement then
        withContext [.mustRetainPaths (retainedRestorePaths part displaced),
            .targetChanged .unverifiable] (do
          match ← request (.renameExchange part final) with
          | .renamed => do
              let displacedReplacement ← fingerprint host part
              ensure (displacedReplacement = replacement)
                [.message "Restoring displaced different bytes"]
              return true
          | _ => throw [.io false])
      else return false

/-- What is done when the displaced file is not the expected one; `cause` stays below the
    error of a file that could be given back, `error` of one that could not. -/
def giveBack (displaced : Path) (replacement : ExistingFileFingerprint)
    (cause error : PublishError) : Publishing Unit := do
  match ← (withContext [.targetChanged .unverifiable]
    (restoreRepairTargetIfUnchanged host part final displaced replacement)) with
  | true => throw (.targetChanged .duringPublication :: cause)
  | false =>
      throw (.mustRetainPaths [displaced] :: .targetChanged .unverifiable :: error)

def checkDisplaced (displaced : Path) (expected replacement : ExistingFileFingerprint) :
    Publishing Unit := do
  match ← request (.readFile displaced) with
  | none => giveBack host part final displaced replacement [.io false] [.io false]
  | some bytes =>
      if fingerprintOf host bytes = expected then pure ()
      else
        giveBack host part final displaced replacement []
          [.message "bytes changed during conditional publication"]

def replaceFileIfUnchanged (expected : ExistingFileFingerprint)
    (expectedReplacement : Option ExistingFileFingerprint) : Publishing Unit := do
  let current ← withContext [.targetChanged .unverifiable] (fingerprint host final)
  ensure (current = expected) [.targetChanged .afterPlanning]
  let replacement ← withContext [.mustRetainPaths [part]] (fingerprint host part)
  ensure (expectedReplacement.all (fun approved => approved = replacement))
    [.mustRetainPaths [part], .message "bytes changed after validation"]
  let displaced ← exchangeRepairFiles host part final expected
  checkInstalled host final displaced expectedReplacement
  checkDisplaced host part final displaced expected replacement
  let _ ← request (.removeFile displaced)

end replace

/-! ## publication without replacement -/

inductive PublishResult where
  | published
  | destinationExists
  deriving DecidableEq

def destinationExistsOr (final : Path) : Publishing PublishResult := do
  match ← request (.tryExists final) with
  | true => return .destinationExists
  | false => throw [.io false]

def publishPartByHardLink (part final : Path) : Publishing PublishResult := do
  match ← request (.hardLink part final) with
  | .opened => do
      let _ ← request (.removeFile part)
      return .published
  | .alreadyExists => return .destinationExists
  | .failed => destinationExistsOr final

def publishPartNoReplace (part final : Path) : Publishing PublishResult := do
  match ← request (.renameNoReplace part final) with
  | .renamed => return .published
  | .alreadyExists => return .destinationExists
  | .unsupported => publishPartByHardLink part final
  | .notFound | .failed => destinationExistsOr final

/-- The temporary file goes when the final path has its bytes already. -/
def deduplicate (host : LandHost) (part final : Path) : Publishing Unit := do
  let partFingerprint ← fingerprint host part
  let finalFingerprint ← fingerprint host final
  ensure (partFingerprint = finalFingerprint) [.finalPathCollision]
  match ← request (.removeFile part) with
  | .removed => pure ()
  | .notFound | .failed =>
      throw [.message "Could not remove redundant completed download", .io false]

def publishPartToFinal (host : LandHost) (part final : Path) :
    FinalPublication → Publishing Unit
  | .replaceTruncated expected => replaceFileIfUnchanged host part final expected none
  | .noReplace => do
      match ← publishPartNoReplace part final with
      | .published => pure ()
      | .destinationExists => deduplicate host part final

/-- The guard of a temporary file deletes it unless it is retained. -/
def dropGuard (part : Path) (retained : List Path) : Publishing Unit :=
  if part ∈ retained then pure ()
  else do
    let _ ← request (.removeFile part)

/-- `PreparedMetadataFile::publish_with`. -/
def publishPrepared (host : LandHost) (part final : Path)
    (expectedInput expectedOutput : ExistingFileFingerprint) :
    Publishing ExistingFileFingerprint := do
  let result ← ExceptT.lift
    (replaceFileIfUnchanged host part final expectedInput (some expectedOutput)).run
  match result with
  | .ok _ => return expectedOutput
  | .error error => do
      dropGuard part (classifyConditionalPublishError error).retainedPaths
      throw (.message "Could not install metadata update" :: error)

/-- A failed publication is an error of the download. -/
def publish (host : LandHost) (part final : Path) (publication : FinalPublication) :
    Landing Unit :=
  ExceptT.adapt (fun _ => .other "publication") (publishPartToFinal host part final publication)

/-! ## downloads -/

/-- What an attempt leaves: the number of bytes, and the bytes that were checked. -/
structure Downloaded where
  bytesWritten : Nat
  content : Content

/-- An attempt up to its publication. -/
def Attempt.fill (fuel : Nat) (a : Attempt) : Landing Downloaded := do
  let resumeOffset ← a.resumeOffset
  let response ← a.fetch resumeOffset
  let start ← Attempt.startOf resumeOffset response
  a.checkContentType response
  a.checkRange response start
  a.openPart start
  let result ← ExceptT.lift (a.streamBody response fuel start.offset).run
  let bytesWritten ← a.closePart result
  a.checkCancelled bytesWritten
  a.checkSize response.contentLength (bytesWritten - start.offset)
  a.checkSize a.expectedSize bytesWritten
  let content ← a.validatePart
  return ⟨bytesWritten, content⟩

/-- `attempt_download_with_publication`. -/
def Attempt.run (host : LandHost) (fuel : Nat) (a : Attempt) : Landing Downloaded := do
  let downloaded ← a.fill fuel
  if a.skipRename then
    return downloaded
  else do
    publish host a.partPath a.downloadPath a.publication
    return downloaded

/-- The attempts of `download_file`: a transfer that fails is tried again, `retries` times. -/
def downloadFile (host : LandHost) (fuel : Nat) (a : Attempt) : (retries : Nat) →
    Landing Downloaded
  | 0 => a.run host fuel
  | retries + 1 => do
      match ← ExceptT.lift (a.run host fuel).run with
      | .ok downloaded => return downloaded
      | .error error =>
          if error.isRetryable then downloadFile host fuel a retries else throw error

/-- A download with what is done to its file. -/
structure SingleTask extends Attempt where
  anyEmbed : Bool
  /-- The creation time, in seconds. -/
  createdTimestamp : Int
  hasStateDb : Bool
  retries : Nat

structure Landed where
  exifOk : Bool
  localChecksum : String
  downloadChecksum : Option String
  bytesDownloaded : Nat

/-- `compute_sha256`. -/
def computeSha256 (host : LandHost) (path : Path) : Landing String := do
  match ← ask (.readFile path) with
  | some bytes => return host.sha256 bytes
  | none => throw (.other "Could not open file for SHA-256")

namespace SingleTask

variable (host : LandHost) (task : SingleTask)

def needsEmbed : Landing Bool :=
  if task.anyEmbed then ask (.isEmbedWritablePath task.downloadPath) else pure false

def claimTempFile : Landing Unit :=
  if task.hasStateDb then do
    match ← ask (.claimTempFile task.partPath) with
    | true => pure ()
    | false => throw (.other "Could not record temporary-file ownership")
  else pure ()

/-- Write the metadata into the temporary file, and publish it. -/
def embedAndPublish : Landing (Bool × String) := do
  let downloadChecksum ← computeSha256 host task.partPath
  let exifOk ← ask (.embedMetadata task.partPath)
  let _ ← ask (.setFileMtime task.partPath task.createdTimestamp)
  publish host task.partPath task.downloadPath task.publication
  return (exifOk, downloadChecksum)

/-- The final path has its file already when no metadata is to be written. -/
def landBytes (needsEmbed : Bool) : Landing (Bool × Option String) :=
  if needsEmbed then do
    let (exifOk, checksum) ← task.embedAndPublish host
    return (exifOk, some checksum)
  else do
    let _ ← ask (.setFileMtime task.downloadPath task.createdTimestamp)
    return (true, none)

/-- What follows the download of the bytes. -/
def finish (needsEmbed : Bool) (downloaded : Downloaded) : Landing Landed := do
  let (exifOk, downloadChecksum) ← task.landBytes host needsEmbed
  let sidecarOk ← ask (.writeSidecar task.downloadPath)
  let localChecksum ← computeSha256 host task.downloadPath
  return ⟨exifOk && sidecarOk, localChecksum, downloadChecksum, downloaded.bytesWritten⟩

/-- The attempts at the task: their caller publishes what metadata is written into. -/
def attempt (needsEmbed : Bool) : Attempt := { task.toAttempt with skipRename := needsEmbed }

def land (fuel : Nat) (needsEmbed : Bool) : Landing Landed := do
  let downloaded ← downloadFile host fuel (task.attempt needsEmbed) task.retries
  task.finish host needsEmbed downloaded

/-- Give up the ownership of the temporary file. -/
def retire (result : Except DownloadError Landed) : Landing Landed := do
  if task.hasStateDb then
    match ← ask (.retireTempFiles [task.partPath]), result with
    | false, .ok _ => throw (.other "Could not retire temporary-file ownership")
    | _, .ok landed => return landed
    | _, .error error => throw error
  else
    MonadExcept.ofExcept result

/-- `download_single_task`. -/
def run (fuel : Nat) : Landing Landed := do
  let needsEmbed ← task.needsEmbed
  task.claimTempFile
  let result ← ExceptT.lift (task.land host fuel needsEmbed).run
  task.retire result

end SingleTask

/-! ## cleanup of orphan parts -/

/-- An owned file that was written to this recently stays, in seconds. -/
def partFileRecentGraceSecs : Int := 10 * 60

/-- Whether the claim of the path is to be retired. -/
def removeOwnedOrphanPart (root : Path) (cutoff now : Int) (path : Path) :
    Proc Call Resp Bool := do
  let found : Option ConfinedFileOpen ← perform (Call.openConfinedRegularFile root path)
  match found with
  | none | some .outsideRoot => return false
  | some .retire => return true
  | some (.regular modified) =>
      if cutoff ≤ modified then return true
      else if now - partFileRecentGraceSecs < modified then return false
      else do
        let result : RemoveResult ← perform (Call.removeFile path)
        return result ≠ .failed

def removeOwnedOrphanParts (root : Path) (cutoff now : Int) :
    List Path → Proc Call Resp (List Path)
  | [] => return []
  | path :: paths => do
      let retired ← removeOwnedOrphanPart root cutoff now path
      let rest ← removeOwnedOrphanParts root cutoff now paths
      return if retired then path :: rest else rest

/-- `cleanup_orphan_part_files`. -/
def cleanupOrphanPartFiles (root : Path) : Proc Call Resp Unit := do
  let lastSync : Option Int ← perform Call.lastSyncCompleted
  match lastSync with
  | none => return ()
  | some cutoff => do
      let owned : Option (List Path) ← perform (Call.ownedTempFilesBefore cutoff)
      match owned with
      | none | some [] => return ()
      | some owned => do
          let now ← perform Call.now
          let retired ← removeOwnedOrphanParts root cutoff now owned
          let _ ← perform (Call.retireTempFiles retired)
          return ()

end Kei.Download
