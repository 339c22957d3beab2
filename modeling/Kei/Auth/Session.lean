import Kei.Lib.Str
import Mathlib.Logic.Relation

/-!
# Kei.Auth.Session

The sessions of an account: their lock file, the generation in it, and the
files with the authentication.

A session takes the lock, reads the generation and keeps it.  To discard the
files it first writes the next generation into the lock file, in place.  A
session that has released the lock may take it again as long as the generation
is still its own.  Sessions run interleaved, any call may fail, and a process
may stop between two calls.
-/

namespace Kei.Auth

open Str

/-- What a session says to a lock file with this text. -/
def readLockGeneration (text : String) : Option Nat :=
  let value := trim text
  if value = "" then some 0 else parseU64 value

/-- The files of an account by their names. -/
def persistedAuthFiles (sanitizedUsername : String) : List String :=
  [sanitizedUsername, sanitizedUsername ++ ".session", sanitizedUsername ++ ".cache"]

/-- Where a session is.  Its generation is the one it has in memory. -/
inductive Session where
  | absent
  /-- It has the lock file open, and may expect a generation. -/
  | opened (expected : Option Nat)
  /-- It has the lock, and has not read the generation. -/
  | acquired (expected : Option Nat)
  | idle (generation : Nat)
  /-- It is about to empty the lock file for the next generation. -/
  | truncating (generation : Nat)
  /-- These digits of the next generation are not written. -/
  | writing (generation : Nat) (left : List Char)
  | syncing (generation : Nat)
  /-- It removes these files. -/
  | removing (generation : Nat) (left : List String)
  /-- It has given the lock back, and is about to say so. -/
  | unlocked (generation : Nat)
  | released (generation : Nat)
  /-- It has taken the lock again, and has not read the generation. -/
  | reacquired (generation : Nat)
  /-- It was not let in again, and is about to give the lock back. -/
  | refused (generation : Nat)
  /-- It is gone; the generation it had may be remembered. -/
  | closed (generation : Option Nat)

/-- The generation that a session has in memory, or had. -/
def Session.generation : Session → Option Nat
  | .absent | .opened _ | .acquired _ => none
  | .idle generation | .truncating generation | .writing generation _ | .syncing generation
  | .removing generation _ | .unlocked generation | .released generation
  | .reacquired generation | .refused generation => some generation
  | .closed generation => generation

structure World where
  lockFile : Option String
  /-- The session with the advisory lock. -/
  holder : Option Nat
  authFiles : List String
  sessions : Nat → Session

namespace World

/-- Any lock file, and no session. -/
def initial (lockFile : Option String) (authFiles : List String) : World :=
  ⟨lockFile, none, authFiles, fun _ => .absent⟩

/-- The text of the lock file; opening one makes an empty one. -/
def text (w : World) : String := w.lockFile.getD ""

def set (w : World) (i : Nat) (session : Session) : World :=
  { w with sessions := fun j => if j = i then session else w.sessions j }

/-- The file of the session is closed, and its lock with it. -/
def drop (w : World) (i : Nat) : World :=
  { w.set i (.closed (w.sessions i).generation) with
    holder := if w.holder = some i then none else w.holder }

/-- One call of a session, or its end. -/
inductive Step (sanitizedUsername : String) : World → World → Prop
  /-- `acquire_with_generation`, for a new session or one after a release. -/
  | openFile {w : World} (i : Nat) (expected : Option Nat) (h : w.sessions i = .absent) :
      Step sanitizedUsername w { w.set i (.opened expected) with lockFile := some w.text }
  | tryLock {w : World} {i : Nat} {expected : Option Nat} (h : w.sessions i = .opened expected)
      (hfree : w.holder = none) :
      Step sanitizedUsername w { w.set i (.acquired expected) with holder := some i }
  -- Somebody else has the lock, or the call fails.
  | lockFails {w : World} {i : Nat} {expected : Option Nat} (h : w.sessions i = .opened expected) :
      Step sanitizedUsername w (w.drop i)
  | read {w : World} {i generation : Nat} {expected : Option Nat}
      (h : w.sessions i = .acquired expected)
      (hread : readLockGeneration w.text = some generation)
      (hexpected : expected = none ∨ expected = some generation) :
      Step sanitizedUsername w (w.set i (.idle generation))
  -- No generation can be read, or it is not the expected one.
  | readFails {w : World} {i : Nat} {expected : Option Nat}
      (h : w.sessions i = .acquired expected) :
      Step sanitizedUsername w (w.drop i)
  | discard {w : World} {i generation : Nat} (h : w.sessions i = .idle generation)
      (hfits : generation + 1 < 2 ^ 64) :
      Step sanitizedUsername w (w.set i (.truncating generation))
  | truncate {w : World} {i generation : Nat} (h : w.sessions i = .truncating generation) :
      Step sanitizedUsername w { w.set i (.writing generation (toString (generation + 1)).toList)
        with lockFile := some "" }
  | truncateFails {w : World} {i generation : Nat} (h : w.sessions i = .truncating generation) :
      Step sanitizedUsername w (w.set i (.idle generation))
  -- A call may write some of the digits only.
  | write {w : World} {i generation : Nat} {written left : List Char}
      (h : w.sessions i = .writing generation (written ++ left)) (hleft : left ≠ []) :
      Step sanitizedUsername w { w.set i (.writing generation left) with
        lockFile := some (w.text ++ String.ofList written) }
  | writeAll {w : World} {i generation : Nat} {written : List Char}
      (h : w.sessions i = .writing generation written) :
      Step sanitizedUsername w { w.set i (.syncing generation) with
        lockFile := some (w.text ++ String.ofList written) }
  | writeFails {w : World} {i generation : Nat} {left : List Char}
      (h : w.sessions i = .writing generation left) :
      Step sanitizedUsername w (w.set i (.idle generation))
  | sync {w : World} {i generation : Nat} (h : w.sessions i = .syncing generation) :
      Step sanitizedUsername w
        (w.set i (.removing (generation + 1) (persistedAuthFiles sanitizedUsername)))
  | syncFails {w : World} {i generation : Nat} (h : w.sessions i = .syncing generation) :
      Step sanitizedUsername w (w.set i (.idle generation))
  | remove {w : World} {i generation : Nat} {path : String} {left : List String}
      (h : w.sessions i = .removing generation (path :: left)) :
      Step sanitizedUsername w { w.set i (.removing generation left) with
        authFiles := w.authFiles.filter (· ≠ path) }
  -- The other files are removed all the same.
  | removeFails {w : World} {i generation : Nat} {path : String} {left : List String}
      (h : w.sessions i = .removing generation (path :: left)) :
      Step sanitizedUsername w (w.set i (.removing generation left))
  | discarded {w : World} {i generation : Nat} (h : w.sessions i = .removing generation []) :
      Step sanitizedUsername w (w.set i (.idle generation))
  | unlock {w : World} {i generation : Nat} (h : w.sessions i = .idle generation) :
      Step sanitizedUsername w { w.set i (.unlocked generation) with holder := none }
  | release {w : World} {i generation : Nat} (h : w.sessions i = .unlocked generation) :
      Step sanitizedUsername w (w.set i (.released generation))
  -- The lock may still be its own, if it could not be given back.
  | reacquire {w : World} {i generation : Nat} (h : w.sessions i = .released generation)
      (hfree : w.holder = none ∨ w.holder = some i) :
      Step sanitizedUsername w { w.set i (.reacquired generation) with holder := some i }
  | reread {w : World} {i generation : Nat} (h : w.sessions i = .reacquired generation)
      (hread : readLockGeneration w.text = some generation) :
      Step sanitizedUsername w (w.set i (.idle generation))
  -- No generation can be read, or it is another one.
  | refuse {w : World} {i generation : Nat} (h : w.sessions i = .reacquired generation) :
      Step sanitizedUsername w (w.set i (.refused generation))
  | unlockRefused {w : World} {i generation : Nat} (h : w.sessions i = .refused generation) :
      Step sanitizedUsername w { w.set i (.released generation) with holder := none }
  | unlockRefusedFails {w : World} {i generation : Nat} (h : w.sessions i = .refused generation) :
      Step sanitizedUsername w (w.set i (.released generation))
  -- The session is dropped, or its process ends.
  | stop {w : World} (i : Nat) : Step sanitizedUsername w (w.drop i)

end World

/-! ## what is asked of the sessions -/

/-- The session acts as the one with the lock. -/
def Session.holdsLock : Session → Bool
  | .acquired _ | .idle _ | .truncating _ | .writing _ _ | .syncing _ | .removing _ _
  | .reacquired _ | .refused _ => true
  | .absent | .opened _ | .unlocked _ | .released _ | .closed _ => false

/-- The generation of a session that has given the lock back, or is gone. -/
def Session.releasedAt : Session → Option Nat
  | .unlocked generation | .released generation => some generation
  | .closed generation => generation
  | _ => none

def Session.isWriting : Session → Bool
  | .writing _ _ => true
  | _ => false

namespace World

/-- No generation is being written, so the next holder of the lock reads what is there. -/
def Settled (w : World) : Prop := ∀ i, (w.sessions i).isWriting = false

/-- `reacquire` succeeds. -/
def Reacquires (i : Nat) (w w' : World) : Prop :=
  ∃ generation, w.sessions i = .reacquired generation ∧ w'.sessions i = .idle generation

/-- `new_after_release` succeeds with a generation. -/
def OpensAfterRelease (generation : Nat) (w w' : World) : Prop :=
  ∃ i, w.sessions i = .acquired (some generation) ∧ w'.sessions i = .idle generation

/-- What the lock and the generations are for, in the runs of `step` from `start` on. -/
structure Guarded (step : World → World → Prop) (start : World) : Prop where
  /-- At most one session acts as the holder of the lock. -/
  exclusive : ∀ w, Relation.ReflTransGen step start w → ∀ i j,
    (w.sessions i).holdsLock = true → (w.sessions j).holdsLock = true → i = j
  /-- The generation in the lock file never decreases. -/
  grows : ∀ w w', Relation.ReflTransGen step start w → Relation.ReflTransGen step w w' →
    w.Settled → w'.Settled → ∀ generation generation',
      readLockGeneration w.text = some generation →
      readLockGeneration w'.text = some generation' → generation ≤ generation'
  /-- A session that is released when files are removed is never let in again. -/
  bars : ∀ w w' w'', Relation.ReflTransGen step start w → Relation.ReflTransGen step w w' →
    step w' w'' → ∀ d next left i generation, w.sessions d = .removing next left →
      (w.sessions i).releasedAt = some generation →
      ¬Reacquires i w' w'' ∧ ¬OpensAfterRelease generation w' w''

/-- A session stops or fails with some of the new generation written, or nothing. -/
def Tears (w w' : World) : Prop :=
  ∃ i generation left, w.sessions i = .writing generation left ∧
    (w'.sessions i).isWriting = false ∧ w'.sessions i ≠ .syncing generation

/-- A step that does not leave the lock file half written. -/
def CleanStep (sanitizedUsername : String) (w w' : World) : Prop :=
  Step sanitizedUsername w w' ∧ ¬Tears w w'

end World

end Kei.Auth
