import Kei.Lib.Bytes
import Kei.Lib.Replace

/-!
# Kei.RedactingWriter

The writer of the log, which hides the password.

1. Every write goes to `pending` first, and what cannot be the front of a
   password any more goes on to the inner writer.
2. A write holds back one byte less than the password has, and the whole of a
   match that goes beyond what may leave.
3. `flush` lets everything go.

However a text is split into writes, the inner writer has it with the password
replaced from the left, as one search of the whole text would: `write_flush`.
-/

namespace Kei

open Bytes Str

/-- The writer, with the bytes that its inner writer was given so far. -/
structure RedactingWriter where
  inner : List UInt8
  password : Option (List UInt8)
  pending : List UInt8

namespace RedactingWriter

/-! ## the search -/

/-- `slice::windows`. -/
def windows (n : Nat) (search : List UInt8) : List (List UInt8) :=
  (List.range (search.length + 1 - n)).map (fun pos => (search.drop pos).take n)

def position (pwBytes search : List UInt8) : Option Nat :=
  (windows pwBytes.length search).findIdx? (fun candidate => candidate == pwBytes)

/-- Eight asterisks. -/
def mask : List UInt8 := List.replicate 8 42

/-- The variables of the search. -/
structure Search where
  output : List UInt8
  consumed : Nat
  searchFrom : Nat
  emitCutoff : Nat

variable {pwBytes search pending rest buf : List UInt8} {pos : Nat}

theorem getElem?_windows {n : Nat} {candidate : List UInt8} :
    (windows n search)[pos]? = some candidate ↔
      pos + n < search.length + 1 ∧ (search.drop pos).take n = candidate := by
  simp [windows, List.getElem?_map, List.getElem?_eq_some_iff]
  omega

theorem isPrefixOf_drop_iff (hne : pwBytes ≠ []) :
    pwBytes.isPrefixOf (search.drop pos) = true ↔
      (windows pwBytes.length search)[pos]? = some pwBytes := by
  rw [List.isPrefixOf_iff_prefix, getElem?_windows, List.prefix_iff_eq_take, eq_comm]
  refine ⟨fun h => ⟨?_, h⟩, And.right⟩
  have hlen := congrArg List.length h
  have hpos := List.length_pos_iff.mpr hne
  rw [List.length_take, List.length_drop] at hlen
  omega

theorem clear_of_none (hne : pwBytes ≠ []) (h : position pwBytes search = none) (i : Nat) :
    pwBytes.isPrefixOf (search.drop i) = false := by
  rw [← Bool.not_eq_true, isPrefixOf_drop_iff hne]
  intro hwindow
  simpa using List.findIdx?_eq_none_iff.mp h _ (List.mem_of_getElem? hwindow)

theorem position_eq_some (hne : pwBytes ≠ []) (h : position pwBytes search = some pos) :
    pos + pwBytes.length ≤ search.length ∧ (search.drop pos).take pwBytes.length = pwBytes ∧
      ∀ i < pos, pwBytes.isPrefixOf (search.drop i) = false := by
  obtain ⟨hlt, hfound, hfirst⟩ := List.findIdx?_eq_some_iff_getElem.mp h
  have hwindow := getElem?_windows.mp (List.getElem?_eq_getElem hlt)
  rw [beq_iff_eq] at hfound
  refine ⟨by omega, hwindow.2.trans hfound, fun i hi => ?_⟩
  rw [← Bool.not_eq_true, isPrefixOf_drop_iff hne, List.getElem?_eq_getElem (Nat.lt_trans hi hlt)]
  simpa using hfirst i hi

/-- The loop of `flush_redacted_pending`. -/
def redact (pwBytes pending : List UInt8) (hne : pwBytes ≠ []) (s : Search) : Search :=
  if _hin : s.searchFrom ≤ pending.length then
    match _h : position pwBytes (pending.drop s.searchFrom) with
    | none => s
    | some pos =>
        let matchStart := s.searchFrom + pos
        let matchEnd := matchStart + pwBytes.length
        if matchStart ≥ s.emitCutoff then
          s
        else if matchEnd > s.emitCutoff then
          { s with emitCutoff := matchStart }
        else
          redact pwBytes pending hne
            { output := s.output ++ (slice? pending s.consumed matchStart).getD [] ++ mask,
              consumed := matchEnd, searchFrom := matchEnd, emitCutoff := s.emitCutoff }
  else
    s
termination_by pending.length - s.searchFrom
decreasing_by
  have hfits := (position_eq_some hne _h).1
  have hpos := List.length_pos_iff.mpr hne
  rw [List.length_drop] at hfits
  omega

/-! ## the writer -/

variable (w : RedactingWriter)

def flushPendingWithoutRedaction : RedactingWriter :=
  { w with inner := w.inner ++ w.pending, pending := [] }

def flushRedactedPending (pwBytes : List UInt8) (flushAll : Bool) : RedactingWriter :=
  if hne : pwBytes = [] then
    w.flushPendingWithoutRedaction
  else
    let holdBack := if flushAll then 0 else pwBytes.length - 1
    let emitCutoff := w.pending.length - holdBack
    if emitCutoff = 0 then
      w
    else
      let s := redact pwBytes w.pending hne ⟨[], 0, 0, emitCutoff⟩
      { w with
        inner := w.inner ++ (s.output ++ (slice? w.pending s.consumed s.emitCutoff).getD []),
        pending := w.pending.drop s.emitCutoff }

/-- `write`, with the count that it returns. -/
def write (buf : List UInt8) : Nat × RedactingWriter :=
  match w.password with
  | none =>
      let w := w.flushPendingWithoutRedaction
      (buf.length, { w with inner := w.inner ++ buf })
  | some pwBytes =>
      -- a short `buf` has a branch of its own in the source, which does the same
      (buf.length, { w with pending := w.pending ++ buf }.flushRedactedPending pwBytes false)

def flush : RedactingWriter :=
  match w.password with
  | none => w.flushPendingWithoutRedaction
  | some pwBytes => w.flushRedactedPending pwBytes true

/-- `Drop` of the writer. -/
def drop : RedactingWriter := w.flush

def writes (bufs : List (List UInt8)) : RedactingWriter :=
  bufs.foldl (fun w buf => (w.write buf).2) w

/-! ## what may leave -/

/-- No match that begins before the cutoff needs what is written later. -/
structure Settled (pwBytes pending rest : List UInt8) (emitCutoff : Nat) : Prop where
  le : emitCutoff ≤ pending.length
  inside : emitCutoff + pwBytes.length ≤ pending.length + 1 ∨ rest = []

variable {hne : pwBytes ≠ []} {s : Search} {emitCutoff : Nat}

theorem Settled.clear (h : Settled pwBytes pending rest emitCutoff) (hpos : pos < emitCutoff)
    (hclear : pwBytes.isPrefixOf (pending.drop pos) = false) :
    pwBytes.isPrefixOf ((pending ++ rest).drop pos) = false := by
  obtain hlen | rfl := h.inside
  · have hle := h.le
    rw [List.drop_append_of_le_length (by omega)]
    rw [← Bool.not_eq_true, List.isPrefixOf_iff_prefix] at hclear ⊢
    intro hmatch
    refine hclear (List.prefix_of_prefix_length_le hmatch (List.prefix_append _ _) ?_)
    rw [List.length_drop]
    omega
  · rwa [List.append_nil]

theorem Settled.emit (h : Settled pwBytes pending rest emitCutoff) {start stop : Nat}
    (hle : start ≤ stop) (hstop : stop ≤ emitCutoff)
    (hclear : ∀ i, i < stop - start → pwBytes.isPrefixOf (pending.drop (start + i)) = false) :
    slice pending start stop ++ replaceFrom pwBytes mask 0 ((pending ++ rest).drop stop) =
      replaceFrom pwBytes mask 0 ((pending ++ rest).drop start) := by
  have hlen := h.le
  rw [@replaceFrom_clear _ _ _ _ ((pending ++ rest).drop start) (stop - start)]
  · rw [List.drop_drop, Nat.add_sub_cancel' hle, slice]
    congr 1
    rw [List.drop_append_of_le_length (by omega), List.take_append_of_le_length]
    rw [List.length_drop]
    omega
  · rw [List.length_drop, List.length_append]
    omega
  · intro i hi
    rw [List.drop_drop]
    exact h.clear (by omega) (hclear i hi)

/-- What the search lets go, and what is replaced in the rest, is what is replaced in all of it. -/
theorem redact_spec (h : Settled pwBytes pending rest s.emitCutoff)
    (hfrom : s.searchFrom = s.consumed) (hle : s.consumed ≤ s.emitCutoff) :
    (redact pwBytes pending hne s).consumed ≤ (redact pwBytes pending hne s).emitCutoff ∧
      (redact pwBytes pending hne s).emitCutoff ≤ s.emitCutoff ∧
      (redact pwBytes pending hne s).output ++
        (slice pending (redact pwBytes pending hne s).consumed
            (redact pwBytes pending hne s).emitCutoff ++
          replaceFrom pwBytes mask 0
            ((pending ++ rest).drop (redact pwBytes pending hne s).emitCutoff)) =
        s.output ++ replaceFrom pwBytes mask 0 ((pending ++ rest).drop s.consumed) := by
  fun_induction redact pwBytes pending hne s with
  | case1 s hin hnone =>
      refine ⟨hle, Nat.le_refl _, congrArg _ (h.emit hle (Nat.le_refl _) fun i _ => ?_)⟩
      rw [← hfrom, ← List.drop_drop]
      exact clear_of_none hne hnone i
  | case2 s hin pos hsome matchStart hbeyond =>
      have hfirst := (position_eq_some hne hsome).2.2
      refine ⟨hle, Nat.le_refl _, congrArg _ (h.emit hle (Nat.le_refl _) fun i hi => ?_)⟩
      rw [← hfrom, ← List.drop_drop]
      exact hfirst i (by omega)
  | case3 s hin pos hsome matchStart matchEnd hbefore hstraddle =>
      have hfirst := (position_eq_some hne hsome).2.2
      have hstart : s.consumed ≤ matchStart := by omega
      have hcut : matchStart ≤ s.emitCutoff := by omega
      refine ⟨hstart, hcut, congrArg _ (h.emit hstart hcut fun i hi => ?_)⟩
      have hi : i < matchStart - s.consumed := hi
      rw [← hfrom, ← List.drop_drop]
      exact hfirst i (by omega)
  | case4 s hin pos hsome matchStart matchEnd hbefore hfits ih =>
      obtain ⟨hlen, hmatch, hfirst⟩ := position_eq_some hne hsome
      have hend : matchEnd ≤ s.emitCutoff := by omega
      obtain ⟨hconsumed, hcut, hrest⟩ := ih h rfl hend
      refine ⟨hconsumed, hcut, hrest.trans ?_⟩
      have hemit := @Settled.emit pwBytes pending rest s.emitCutoff h s.consumed matchStart
        (by omega) (by omega) fun i hi => by
          rw [← hfrom, ← List.drop_drop]
          exact hfirst i (by omega)
      have hcutoff := h.le
      have hfound : (pending ++ rest).drop matchStart =
          pwBytes ++ (pending ++ rest).drop matchEnd := by
        rw [List.drop_drop] at hmatch
        have hsplit := List.take_append_drop pwBytes.length (pending.drop matchStart)
        rw [hmatch, List.drop_drop] at hsplit
        rw [List.drop_append_of_le_length (by omega), List.drop_append_of_le_length (by omega),
          ← hsplit, List.append_assoc]
      rw [← hemit, hfound, replaceFrom_pattern hne,
        slice?_of_le (by omega) (by omega), Option.getD_some]
      simp only [List.append_assoc]
  | case5 s hout => exact absurd (hfrom ▸ Nat.le_trans hle h.le) hout

theorem redact_all (h : s.emitCutoff = pending.length) :
    (redact pwBytes pending hne s).emitCutoff = pending.length := by
  fun_induction redact pwBytes pending hne s with
  | case1 s hin hnone => exact h
  | case2 s hin pos hsome matchStart hbeyond => exact h
  | case3 s hin pos hsome matchStart matchEnd hbefore hstraddle =>
      have hlen := (position_eq_some hne hsome).1
      rw [List.length_drop] at hlen
      omega
  | case4 s hin pos hsome matchStart matchEnd hbefore hfits ih => exact ih h
  | case5 s hout => exact h

/-! ## writes -/

variable {w : RedactingWriter}

/-- What leaves, and what is replaced in what is held back, is what is replaced in all of it. -/
theorem flushRedactedPending_spec (hne : pwBytes ≠ []) {flushAll : Bool}
    (h : flushAll = true → rest = []) :
    (w.flushRedactedPending pwBytes flushAll).inner ++ replaceFrom pwBytes mask 0
        ((w.flushRedactedPending pwBytes flushAll).pending ++ rest) =
      w.inner ++ replaceFrom pwBytes mask 0 (w.pending ++ rest) := by
  have hpos := List.length_pos_iff.mpr hne
  have hhold : (if flushAll then 0 else pwBytes.length - 1) = pwBytes.length - 1 ∨ rest = [] := by
    cases flushAll with
    | true => exact .inr (h rfl)
    | false => exact .inl rfl
  unfold flushRedactedPending
  rw [dif_neg hne]
  generalize (if flushAll then 0 else pwBytes.length - 1) = holdBack at *
  dsimp only
  split
  · rfl
  · have hsettled : Settled pwBytes w.pending rest (w.pending.length - holdBack) :=
      ⟨Nat.sub_le _ _, hhold.imp_left fun hhold => by omega⟩
    obtain ⟨hconsumed, hcut, hspec⟩ := @redact_spec pwBytes w.pending rest hne
      ⟨[], 0, 0, w.pending.length - holdBack⟩ hsettled rfl (Nat.zero_le _)
    generalize redact _ _ _ _ = s at *
    have hle := Nat.le_trans hcut hsettled.le
    rw [slice?_of_le hconsumed hle, Option.getD_some, ← List.drop_append_of_le_length hle,
      List.append_assoc, List.append_assoc, hspec]
    rfl

theorem password_flushRedactedPending (flushAll : Bool) :
    (w.flushRedactedPending pwBytes flushAll).password = w.password := by
  simp only [flushRedactedPending, flushPendingWithoutRedaction]
  split_ifs <;> rfl

theorem pending_flush (hpw : w.password = some pwBytes) : w.flush.pending = [] := by
  simp only [flush, hpw, flushRedactedPending, flushPendingWithoutRedaction]
  split_ifs with hnil hzero
  · rfl
  · exact List.length_eq_zero_iff.mp hzero
  · rw [redact_all rfl, List.drop_length]

/-- **The password is replaced from the left**, however the text is split into writes. -/
theorem writes_spec (hpw : w.password = some pwBytes) (hne : pwBytes ≠ [])
    (bufs : List (List UInt8)) :
    (w.writes bufs).password = some pwBytes ∧
      (w.writes bufs).inner ++ replaceFrom pwBytes mask 0 (w.writes bufs).pending =
        w.inner ++ replaceFrom pwBytes mask 0 (w.pending ++ bufs.flatten) := by
  suffices ∀ rest, (w.writes bufs).password = some pwBytes ∧
      (w.writes bufs).inner ++ replaceFrom pwBytes mask 0 ((w.writes bufs).pending ++ rest) =
        w.inner ++ replaceFrom pwBytes mask 0 (w.pending ++ (bufs.flatten ++ rest)) by
    simpa using this []
  intro rest
  induction bufs generalizing w with
  | nil => exact ⟨hpw, rfl⟩
  | cons buf bufs ih =>
      have hwrite : (w.write buf).2 =
          { w with pending := w.pending ++ buf }.flushRedactedPending pwBytes false := by
        rw [write, hpw]
      have hsame : (w.write buf).2.password = some pwBytes := by
        rw [hwrite, password_flushRedactedPending, hpw]
      have hspec := @flushRedactedPending_spec pwBytes (bufs.flatten ++ rest)
        { w with pending := w.pending ++ buf } hne false nofun
      obtain ⟨hpassword, hrest⟩ := ih hsame
      refine ⟨hpassword, hrest.trans ?_⟩
      rw [hwrite, hspec, List.flatten_cons, List.append_assoc, List.append_assoc]

theorem flush_flushed (hpw : w.password = some pwBytes) (hne : pwBytes ≠ [])
    (hflushed : w.pending = []) : w.flush = w := by
  simp [flush, hpw, flushRedactedPending, hne, hflushed]

/-- **The inner writer has the text with the password replaced** from the left, once the writer is
flushed or dropped, however the text is split into writes; and it has no password, unless the
password has an asterisk. -/
theorem write_flush {password : List UInt8} (hne : password ≠ []) (bufs : List (List UInt8)) :
    ((⟨[], some password, []⟩ : RedactingWriter).writes bufs).flush.drop.inner =
        replaceFrom password mask 0 bufs.flatten ∧
      ((⟨[], some password, []⟩ : RedactingWriter).writes bufs).drop.inner =
        replaceFrom password mask 0 bufs.flatten ∧
      (42 ∉ password → ¬password <:+: replaceFrom password mask 0 bufs.flatten) := by
  obtain ⟨hpassword, hspec⟩ := @writes_spec password ⟨[], some password, []⟩ rfl hne bufs
  generalize RedactingWriter.writes _ bufs = w at *
  have hpending := pending_flush hpassword
  have hflush : w.flush = w.flushRedactedPending password true := by rw [flush, hpassword]
  have hinner : w.flush.inner = replaceFrom password mask 0 bufs.flatten := by
    have hall := @flushRedactedPending_spec password [] w hne true fun _ => rfl
    rw [← hflush, hpending, List.append_nil, List.append_nil, hspec] at hall
    simpa [replaceFrom] using hall
  have hsame : w.flush.password = some password := by
    rw [hflush, password_flushRedactedPending, hpassword]
  refine ⟨?_, hinner, fun hmask hinfix => ?_⟩
  · rw [drop, flush_flushed hsame hne hpending, hinner]
  · have hnone := @not_contains_replaceFrom _ _ password mask hne (by decide)
      (fun c hc => by rwa [List.eq_of_mem_replicate hc]) bufs.flatten
    rw [← Bool.not_eq_true, containsFrom_iff] at hnone
    exact hnone hinfix

/-- The password "s3c" in two writes. -/
theorem write_flush_split :
    ((⟨[], some [115, 51, 99], []⟩ : RedactingWriter).writes [[32, 115, 51], [99, 33]]).drop.inner =
      32 :: (mask ++ [33]) :=
  (write_flush (by decide) [[32, 115, 51], [99, 33]]).2.1.trans (by decide)

end RedactingWriter
end Kei
