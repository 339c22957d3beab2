import Kei.Lib.Bytes
import Kei.Lib.Fallible

/-!
# Kei.Heif.Boxes

The boxes of an ISO-BMFF file, and the integers in them.

A file is a sequence of boxes, and a box is a size, a kind and a body, which
may be a sequence of boxes in turn.  Boxes are read and written by position in
the bytes of the file, as the rewriter does.
-/

namespace Kei.Heif

open Bytes Fallible

/-! ## errors -/

inductive HeifError where
  | invalidLayout (reason : String)
  | valueOverflow (field : String)
  deriving DecidableEq

/-- An addition of 64-bit numbers, which is checked. -/
def checkedAdd (a b : Nat) : Option Nat := if a + b < 2 ^ 64 then some (a + b) else none

@[simp] theorem checkedAdd_eq_some {a b c : Nat} :
    checkedAdd a b = some c ↔ a + b < 2 ^ 64 ∧ a + b = c := by
  unfold checkedAdd
  split
  · next hfits => simp only [Option.some.injEq, hfits, true_and]
  · next hover => simp only [reduceCtorEq, hover, false_and]

def invalidLayout (reason : String) : HeifError := .invalidLayout reason

/-- ASCII text as bytes. -/
def ascii (text : String) : List UInt8 := text.toList.map (fun c => UInt8.ofNat c.toNat)

/-! ## boxes -/

/-- The position of a box in the bytes that it was read from. -/
structure RawBox where
  start : Nat
  size : Nat
  headerSize : Nat
  kind : List UInt8
  deriving DecidableEq

namespace RawBox

def bodyStart (atom : RawBox) : Nat := atom.start + atom.headerSize

def stop (atom : RawBox) : Nat := atom.start + atom.size

end RawBox

/-- The bytes of a box behind its header. -/
def bodyOf (bytes : List UInt8) (atom : RawBox) : List UInt8 :=
  slice bytes atom.bodyStart atom.stop

/-- The sizes of the header and of the box, after the 32-bit size. -/
def parseBoxSize (bytes : List UInt8) (start size32 : Nat) : Except HeifError (Nat × Nat) :=
  if size32 = 0 then
    .error (invalidLayout "ISO-BMFF box has no explicit size and cannot be rewritten")
  else if size32 = 1 then do
    let large ← require (invalidLayout "truncated large ISO-BMFF box header")
      (slice? bytes (start + 8) (start + 16))
    pure (16, beNat large)
  else pure (8, size32)

def parseRawBox (bytes : List UInt8) (start : Nat) : Except HeifError RawBox := do
  let header ← require (invalidLayout "truncated ISO-BMFF box header")
    (slice? bytes start (start + 8))
  let (headerSize, size) ← parseBoxSize bytes start (beNat (slice header 0 4))
  ensure (headerSize ≤ size) (invalidLayout "ISO-BMFF box is smaller than its header")
  let stop ← require (invalidLayout "ISO-BMFF box end overflows") (checkedAdd start size)
  ensure (stop ≤ bytes.length) (invalidLayout "ISO-BMFF box extends past the file")
  pure ⟨start, size, headerSize, slice header 4 8⟩

/-- The loop of `scan_raw_boxes`.  A box is never empty, so that the loop has ended after
as many rounds as there are bytes. -/
def scanFrom (bytes : List UInt8) (stop : Nat) : Nat → Nat → Except HeifError (List RawBox)
  | rounds + 1, cursor =>
      if cursor < stop then do
        let atom ← parseRawBox bytes cursor
        ensure (atom.stop ≤ stop)
          (invalidLayout "nested ISO-BMFF box extends past its parent")
        let atoms ← scanFrom bytes stop rounds atom.stop
        pure (atom :: atoms)
      else do
        ensure (cursor = stop)
          (invalidLayout "nested ISO-BMFF boxes leave a trailing fragment")
        pure []
  | 0, cursor => do
      ensure (cursor = stop) (invalidLayout "nested ISO-BMFF boxes leave a trailing fragment")
      pure []

def scanRawBoxes (bytes : List UInt8) (start stop : Nat) : Except HeifError (List RawBox) := do
  ensure (start ≤ stop ∧ stop ≤ bytes.length) (invalidLayout "invalid ISO-BMFF box range")
  scanFrom bytes stop (stop - start) start

def boxWithBody (kind body : List UInt8) : Except HeifError (List UInt8) := do
  let size ← require (invalidLayout "rewritten ISO-BMFF box size overflows")
    (checkedAdd body.length 8)
  ensure (size < 2 ^ 32) (invalidLayout "rewritten ISO-BMFF box is too large")
  pure (toBe 4 size ++ kind ++ body)

def patchBoxSize (box : List UInt8) : Except HeifError (List UInt8) := do
  ensure (box.length < 2 ^ 32) (invalidLayout "rewritten ISO-BMFF box is too large")
  ensure (4 ≤ box.length) (invalidLayout "rewritten ISO-BMFF box has no size field")
  pure (overwrite box 0 (toBe 4 box.length))

/-! ## integers -/

/-- The value, and the position behind it. -/
def readUint (bytes : List UInt8) (cursor width : Nat) : Except HeifError (Nat × Nat) :=
  if width = 0 then pure (0, cursor)
  else do
    let stop ← require (invalidLayout "HEIC integer position overflows")
      (checkedAdd cursor width)
    ensure (width = 2 ∨ width = 4 ∨ width = 8) (invalidLayout "unsupported HEIC integer width")
    let field ← require (invalidLayout "truncated HEIC integer") (slice? bytes cursor stop)
    pure (beNat field, stop)

/-- A number as a field of 2, 4 or 8 bytes. -/
def encodeUint (width value : Nat) : Except HeifError (List UInt8) :=
  match width with
  | 2 => do
      ensure (value < 2 ^ 16) (.valueOverflow "16-bit HEIC field")
      pure (toBe 2 value)
  | 4 => do
      ensure (value < 2 ^ 32) (.valueOverflow "32-bit HEIC field")
      pure (toBe 4 value)
  | 8 => pure (toBe 8 value)
  | _ => .error (invalidLayout "unsupported HEIC integer width")

def writeUint (bytes : List UInt8) (pos width value : Nat) : Except HeifError (List UInt8) :=
  if width = 0 then
    if value = 0 then pure bytes
    else .error (invalidLayout "non-zero value cannot use a zero-width field")
  else do
    let stop ← require (invalidLayout "HEIC integer position overflows") (checkedAdd pos width)
    ensure (stop ≤ bytes.length) (invalidLayout "HEIC integer field is truncated")
    let field ← encodeUint width value
    pure (overwrite bytes pos field)

/-- What `write_uint_vec` puts behind the bytes. -/
def writeUintVec (width value : Nat) : Except HeifError (List UInt8) :=
  if width = 0 then
    if value = 0 then pure []
    else .error (invalidLayout "non-zero value cannot use a zero-width field")
  else encodeUint width value

def uniqueRequiredBox (boxes : List RawBox) (kind : List UInt8) (missing duplicate : String) :
    Except HeifError RawBox :=
  match boxes.filter (fun atom => atom.kind = kind) with
  | [] => .error (invalidLayout missing)
  | [first] => pure first
  | _ => .error (invalidLayout duplicate)

def uniqueOptionalBox (boxes : List RawBox) (kind : List UInt8) (duplicate : String) :
    Except HeifError (Option RawBox) :=
  match boxes.filter (fun atom => atom.kind = kind) with
  | [] => pure none
  | [first] => pure (some first)
  | _ => .error (invalidLayout duplicate)

end Kei.Heif
