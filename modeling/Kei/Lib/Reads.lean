import Kei.Lib.Bytes
import Kei.Lib.Prog

/-!
# Kei.Lib.Reads

Programs that read a file, and put on record what they ask of it.

`Local` says which ranges a program puts on record and how it ends, and that
it does the same on another file which agrees with this one on the record.
-/

namespace Reads

open Bytes

/-- The start and the length of each range that was asked for, the last one first. -/
abbrev Log := List (Nat × Nat)

abbrev Reader (ε α : Type) := Prog Log ε α

variable {ε α β : Type} {bytes bytes' : List UInt8}

def record (r : Nat × Nat) (result : Except ε α) : Reader ε α := fun log => (result, r :: log)

def range (bytes : List UInt8) (missing : ε) (start length : Nat) : Reader ε (List UInt8) :=
  record (start, length) ((slice? bytes start (start + length)).elim (.error missing) .ok)

/-- Whether the file goes on at an offset. -/
def covers (bytes : List UInt8) (offset : Nat) : Reader ε Bool :=
  record (offset, 1) (.ok (slice? bytes offset (offset + 1)).isSome)

/-- Two files have the same bytes in every range, or neither has the range. -/
def Agree (bytes bytes' : List UInt8) (log : Log) : Prop :=
  ∀ r ∈ log, slice? bytes r.1 (r.1 + r.2) = slice? bytes' r.1 (r.1 + r.2)

/-- The range is in another one. -/
def Inside (outer r : Nat × Nat) : Prop := outer.1 ≤ r.1 ∧ r.1 + r.2 ≤ outer.1 + outer.2

theorem Agree.inside {outer r : Nat × Nat} (h : Agree bytes bytes' [outer])
    (hfits : outer.1 + outer.2 ≤ bytes.length) (hr : Inside outer r) : Agree bytes bytes' [r] := by
  have houter := h outer (List.mem_singleton_self _)
  rw [slice?_of_le (Nat.le_add_right _ _) hfits] at houter
  obtain ⟨-, hfits', hslice⟩ := slice?_eq_some.mp houter.symm
  obtain ⟨hfrom, hto⟩ := hr
  intro r' hr'
  cases List.mem_singleton.mp hr'
  have hpart : ∀ bs : List UInt8, slice (slice bs outer.1 (outer.1 + outer.2)) (r.1 - outer.1)
      (r.1 - outer.1 + r.2) = slice bs r.1 (r.1 + r.2) := fun bs => by
    rw [slice_slice bs (by omega)]
    congr 1 <;> omega
  rw [slice?_of_le (by omega) (by omega), slice?_of_le (by omega) (by omega), ← hpart, ← hpart,
    hslice]

/-- The result of a program. -/
def Ends (fails : ε → Prop) (returns : α → Prop) : Except ε α → Prop
  | .ok a => returns a
  | .error e => fails e

/-- What a program asks for and how it ends, here and on a file that agrees. -/
def Local (bytes bytes' : List UInt8) (reads : Nat × Nat → Prop) (fails : ε → Prop)
    (returns : α → Prop) (x x' : Reader ε α) : Prop :=
  ∀ log, (∀ r ∈ log, r ∈ (x log).2) ∧ (∀ r ∈ (x log).2, r ∈ log ∨ reads r) ∧
    Ends fails returns (x log).1 ∧ (Agree bytes bytes' (x log).2 → x' log = x log)

namespace Local

variable {reads : Nat × Nat → Prop} {fails : ε → Prop} {returns : α → Prop} {x x' : Reader ε α}

theorem pure {a : α} (h : returns a) : Local bytes bytes' reads fails returns (pure a) (pure a) :=
  fun _ => ⟨fun _ h => h, fun _ h => .inl h, h, fun _ => rfl⟩

theorem halt {e : ε} (h : fails e) :
    Local bytes bytes' reads fails returns (Prog.halt e) (Prog.halt e) :=
  fun _ => ⟨fun _ h => h, fun _ h => .inl h, h, fun _ => rfl⟩

theorem record {r : Nat × Nat} {result result' : Except ε α} (hreads : reads r)
    (hends : Ends fails returns result)
    (hsame : Agree bytes bytes' [r] → result' = result) :
    Local bytes bytes' reads fails returns (record r result) (Reads.record r result') := by
  refine fun log => ⟨fun _ => List.mem_cons_of_mem _, fun s hs => ?_, hends, fun hagree => ?_⟩
  · rcases List.mem_cons.mp hs with rfl | hs
    · exact .inr hreads
    · exact .inl hs
  · have hr : Agree bytes bytes' [r] := fun s hs => hagree s (by simp_all [Reads.record])
    rw [Reads.record, hsame hr]
    rfl

theorem range {missing : ε} {start length : Nat} (hreads : reads (start, length))
    (hmissing : slice? bytes start (start + length) = none → fails missing) :
    Local bytes bytes' reads fails (fun _ => start + length ≤ bytes.length)
      (range bytes missing start length) (Reads.range bytes' missing start length) := by
  refine record hreads ?_ fun hagree => ?_
  · cases hslice : slice? bytes start (start + length) with
    | none => exact hmissing hslice
    | some field => exact (slice?_eq_some.mp hslice).2.1
  · rw [hagree (start, length) (List.mem_singleton_self _)]

theorem covers {offset : Nat} (hreads : reads (offset, 1)) :
    Local bytes bytes' reads fails (fun _ => True) (covers bytes offset)
      (Reads.covers bytes' offset) :=
  record hreads trivial fun hagree => by rw [hagree (offset, 1) (List.mem_singleton_self _)]

theorem mono {returns' : α → Prop} (h : Local bytes bytes' reads fails returns x x')
    (hreturns : ∀ a, returns a → returns' a) : Local bytes bytes' reads fails returns' x x' := by
  intro log
  obtain ⟨hgrows, hreads, hends, hsame⟩ := h log
  refine ⟨hgrows, hreads, ?_, hsame⟩
  cases hresult : (x log).1 with
  | ok a => exact hreturns a (by rwa [hresult] at hends)
  | error e => rwa [hresult] at hends

theorem bind {f f' : α → Reader ε β} {returns' : β → Prop}
    (h : Local bytes bytes' reads fails returns x x')
    (hf : ∀ a, returns a → Local bytes bytes' reads fails returns' (f a) (f' a)) :
    Local bytes bytes' reads fails returns' (x >>= f) (x' >>= f') := by
  intro log
  obtain ⟨hgrows, hreads, hends, hsame⟩ := h log
  cases hx : x log with
  | mk result log' =>
      rw [hx] at hgrows hreads hends hsame
      cases result with
      | error e =>
          rw [Prog.run_bind_error hx]
          exact ⟨hgrows, hreads, hends, fun hagree => Prog.run_bind_error (hsame hagree)⟩
      | ok a =>
          obtain ⟨hgrows', hreads', hends', hsame'⟩ := hf a hends log'
          rw [Prog.run_bind_ok hx]
          refine ⟨fun r hr => hgrows' r (hgrows r hr), fun r hr => ?_, hends', fun hagree => ?_⟩
          · exact (hreads' r hr).elim (hreads r) .inr
          · rw [Prog.run_bind_ok (hsame fun r hr => hagree r (hgrows' r hr)), hsame' hagree]

theorem map {f : α → β} {returns' : β → Prop}
    (h : Local bytes bytes' reads fails returns x x') (hf : ∀ a, returns a → returns' (f a)) :
    Local bytes bytes' reads fails returns' (f <$> x) (f <$> x') :=
  bind h fun a ha => pure (hf a ha)

end Local
end Reads
