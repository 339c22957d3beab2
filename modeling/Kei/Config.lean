import Kei.Lib.Str

/-!
# Kei.Config

The bounds on creation dates of `config.rs`: an instant, or a capture date,
which an asset has at its own offset from UTC.

1. A bound is read as a count of days before now, as a date or as a local time.
2. `is_strictly_after` judges a window of two bounds against every offset.
3. Calendar arithmetic that leaves the range of the calendar panics: `none`.
-/

namespace Kei.Config

open Str

/-! ## the calendar -/

/-- January 1 of the year -262143 and December 31 of the year 262142. -/
def minDay : Int := -96465292
def maxDay : Int := 95026236

/-- A day, counted from January 1, 1970. -/
structure NaiveDate where
  day : Int
  minDay_le : minDay ≤ day
  le_maxDay : day ≤ maxDay
  deriving DecidableEq

def NaiveDate.min : NaiveDate := ⟨minDay, by decide, by decide⟩

/-- An instant in UTC; in a leap second `nanos` goes on beyond a billion. -/
structure DateTime where
  secs : Int
  nanos : Nat
  minDay_le : minDay * 86400 ≤ secs
  le_maxDay : secs < (maxDay + 1) * 86400
  nanos_lt : nanos < 2 * 10 ^ 9
  deriving DecidableEq

instance : LT DateTime where
  lt a b := a.secs < b.secs ∨ a.secs = b.secs ∧ a.nanos < b.nanos

instance : LE DateTime where
  le a b := ¬b < a

variable {a b : DateTime}

theorem DateTime.lt_def : a < b ↔ a.secs < b.secs ∨ a.secs = b.secs ∧ a.nanos < b.nanos := Iff.rfl

theorem DateTime.le_def : a ≤ b ↔ ¬b < a := Iff.rfl

instance (a b : DateTime) : Decidable (a < b) :=
  inferInstanceAs (Decidable (a.secs < b.secs ∨ a.secs = b.secs ∧ a.nanos < b.nanos))

instance (a b : DateTime) : Decidable (a ≤ b) := inferInstanceAs (Decidable (¬b < a))

/-- Midnight UTC on the date. -/
def NaiveDate.midnight (date : NaiveDate) : DateTime where
  secs := date.day * 86400
  nanos := 0
  minDay_le := by have := date.minDay_le; omega
  le_maxDay := by have := date.le_maxDay; omega
  nanos_lt := by decide

def NaiveDate.succOpt (date : NaiveDate) : Option NaiveDate :=
  if h : date.day + 1 ≤ maxDay then
    some ⟨date.day + 1, by have := date.minDay_le; omega, h⟩
  else
    none

/-- `+` of a duration in seconds. -/
def DateTime.add (t : DateTime) (seconds : Int) : Option DateTime :=
  if h : minDay * 86400 ≤ t.secs + seconds ∧ t.secs + seconds < (maxDay + 1) * 86400 then
    some ⟨t.secs + seconds, t.nanos, h.1, h.2, t.nanos_lt⟩
  else
    none

/-- `Duration::days`, in seconds: a duration has its milliseconds in 64 bits. -/
def durationDays (days : Int) : Option Int :=
  if (days * 86400).natAbs ≤ (2 ^ 63 - 1) / 1000 then some (days * 86400) else none

/-- What the bounds are read with. -/
structure Host where
  now : DateTime
  now_nanos : now.nanos < 10 ^ 9
  /-- `NaiveDate::parse_from_str` with `%Y-%m-%d`. -/
  parseDate : String → Option NaiveDate
  /-- `NaiveDateTime::parse_from_str` with `%Y-%m-%dT%H:%M:%S`, as the one instant that the local
  time stands for. -/
  parseLocal : String → Option DateTime

/-! ## bounds -/

/-- With the range of the calendar, which the filter of an asset has no need of. -/
inductive CreatedDateFilter where
  | instant (boundary : DateTime)
  | captureDate (boundary : NaiveDate)
  deriving DecidableEq

/-- The day that an instant has at an offset of so many seconds. -/
def captureDay (createdAt : DateTime) (offset : Int) : Int := (createdAt.secs + offset) / 86400

namespace CreatedDateFilter

def excludesBefore (filter : CreatedDateFilter) (createdAt : DateTime) (captureDay : Int) : Bool :=
  match filter with
  | .instant boundary => createdAt < boundary
  | .captureDate boundary => captureDay < boundary.day

def excludesAfter (filter : CreatedDateFilter) (createdAt : DateTime) (captureDay : Int) : Bool :=
  match filter with
  | .instant boundary => boundary < createdAt
  | .captureDate boundary => boundary.day < captureDay

def widestOffsetSeconds : Int := 86399

def earliestInstantOn (date : NaiveDate) : Option DateTime :=
  date.midnight.add (-widestOffsetSeconds)

/-- No instant at the end of the calendar. -/
def firstInstantAfter (date : NaiveDate) : Option (Option DateTime) :=
  match date.succOpt with
  | none => some none
  | some next => (next.midnight.add widestOffsetSeconds).map some

def isStrictlyAfter (before after : CreatedDateFilter) : Option Bool :=
  match before, after with
  | .instant before, .instant after => some (after < before)
  | .captureDate before, .captureDate after => some (after.day < before.day)
  | .captureDate before, .instant after =>
      (earliestInstantOn before).map (fun earliest => after < earliest)
  | .instant before, .captureDate after =>
      (firstInstantAfter after).map (fun first => first.any (fun last => last ≤ before))

def conservativeUtcLowerBound : CreatedDateFilter → Option DateTime
  | .instant boundary => some boundary
  | .captureDate boundary => boundary.midnight.add (-86400)

end CreatedDateFilter

/-- The count of days before a `d`. -/
def intervalDays (s : String) : Option Nat :=
  if s.toList.getLast? = some 'd' then parseU64 (String.ofList s.toList.dropLast) else none

def parseCreatedDateFilter (host : Host) (s : String) : Option (Except String CreatedDateFilter) :=
  match intervalDays s with
  | some days =>
      if days < 2 ^ 63 then do
        let interval ← durationDays days
        let boundary ← host.now.add (-interval)
        return .ok (.instant boundary)
      else
        some (.error ("Date interval '" ++ s ++ "' is too large"))
  | none =>
      match host.parseDate s, host.parseLocal s with
      | some date, _ => some (.ok (.captureDate date))
      | none, some boundary => some (.ok (.instant boundary))
      | none, none =>
          some (.error ("Could not parse '" ++ s ++ "' as a date. Use a date like 2025-01-02, " ++
            "a datetime like 2025-01-02T14:30:00, or an interval like 20d."))

/-! ## overflow -/

theorem DateTime.isSome_add {t : DateTime} {seconds : Int} : (t.add seconds).isSome = true ↔
    minDay * 86400 ≤ t.secs + seconds ∧ t.secs + seconds < (maxDay + 1) * 86400 := by
  unfold DateTime.add
  split <;> simp [*]

theorem DateTime.add_eq_some {t t' : DateTime} {seconds : Int} (h : t.add seconds = some t') :
    t'.secs = t.secs + seconds ∧ t'.nanos = t.nanos := by
  unfold DateTime.add at h
  split at h
  · cases h
    exact ⟨rfl, rfl⟩
  · cases h

/-- So many days before now there is a day in the calendar. -/
def InCalendar (host : Host) (s : String) : Prop :=
  ∀ days, intervalDays s = some days → days < 2 ^ 63 → minDay * 86400 ≤ host.now.secs - days * 86400

theorem parse_isSome_iff (host : Host) (s : String) :
    (parseCreatedDateFilter host s).isSome = true ↔ InCalendar host s := by
  unfold parseCreatedDateFilter InCalendar
  cases intervalDays s with
  | none =>
      simp only [reduceCtorEq, false_imp_iff, implies_true, iff_true]
      split <;> rfl
  | some days =>
      simp only [Option.some.injEq, forall_eq']
      split
      · next hdays =>
          rw [imp_iff_right hdays]
          have hfirst := host.now.le_maxDay
          have hlast : maxDay - minDay = 191491528 := rfl
          unfold durationDays
          split
          · have hadd := @DateTime.isSome_add host.now (-(days * 86400))
            cases h : host.now.add (-(days * 86400)) with
            | none =>
                rw [h] at hadd
                simp at hadd ⊢
                simp [h]
                omega
            | some boundary =>
                rw [h] at hadd
                simp at hadd ⊢
                simp [h]
                omega
          · -- a duration that is too long leaves the calendar, too
            simp
            omega
      · next hdays =>
          exact iff_of_true rfl fun h => absurd h hdays

/-! ## windows -/

variable {date : NaiveDate}

theorem captureDay_le {t : DateTime} {offset : Int} :
    captureDay t offset ≤ date.day ↔ t.secs + offset < (date.day + 1) * 86400 := by
  unfold captureDay
  omega

theorem le_captureDay {t : DateTime} {offset : Int} :
    date.day ≤ captureDay t offset ↔ date.day * 86400 ≤ t.secs + offset := by
  unfold captureDay
  omega

/-- An asset that is created then, and there, is in the window. -/
def Passes (before after : CreatedDateFilter) (t : DateTime) (offset : Int) : Prop :=
  offset.natAbs ≤ 86399 ∧ before.excludesBefore t (captureDay t offset) = false ∧
    after.excludesAfter t (captureDay t offset) = false

/-- What the two bounds of a window promise. -/
structure Sound (before after : CreatedDateFilter) : Prop where
  strictly : ∃ empty, before.isStrictlyAfter after = some empty ∧
    (empty = true ↔ ¬∃ t offset, Passes before after t offset)
  lower : ∃ bound, before.conservativeUtcLowerBound = some bound ∧
    ∀ t offset, offset.natAbs ≤ 86399 →
      before.excludesBefore t (captureDay t offset) = false → bound ≤ t

theorem passes_instants (b a : DateTime) :
    (∃ t offset, Passes (.instant b) (.instant a) t offset) ↔ ¬a < b := by
  constructor
  · rintro ⟨t, offset, -, hbefore, hafter⟩
    simp only [CreatedDateFilter.excludesBefore, CreatedDateFilter.excludesAfter,
      decide_eq_false_iff_not, DateTime.lt_def] at hbefore hafter ⊢
    omega
  · intro h
    refine ⟨b, 0, by decide, ?_, ?_⟩ <;>
      simp only [CreatedDateFilter.excludesBefore, CreatedDateFilter.excludesAfter,
        decide_eq_false_iff_not, DateTime.lt_def] at h ⊢ <;> omega

theorem passes_dates (b a : NaiveDate) :
    (∃ t offset, Passes (.captureDate b) (.captureDate a) t offset) ↔ ¬a.day < b.day := by
  constructor
  · rintro ⟨t, offset, -, hbefore, hafter⟩
    simp only [CreatedDateFilter.excludesBefore, CreatedDateFilter.excludesAfter,
      decide_eq_false_iff_not] at hbefore hafter
    omega
  · intro h
    have hday : captureDay b.midnight 0 = b.day := by
      simp only [captureDay, NaiveDate.midnight]
      omega
    refine ⟨b.midnight, 0, by decide, ?_, ?_⟩ <;>
      simp_all [CreatedDateFilter.excludesBefore, CreatedDateFilter.excludesAfter]

theorem passes_date_instant (b : NaiveDate) (a : DateTime) :
    (∃ t offset, Passes (.captureDate b) (.instant a) t offset) ↔
      b.day * 86400 ≤ a.secs + 86399 := by
  constructor
  · rintro ⟨t, offset, hwide, hbefore, hafter⟩
    simp only [CreatedDateFilter.excludesBefore, CreatedDateFilter.excludesAfter,
      decide_eq_false_iff_not, Int.not_lt, le_captureDay, DateTime.lt_def] at hbefore hafter
    omega
  · intro h
    refine ⟨a, 86399, by decide, ?_, ?_⟩ <;>
      simp only [CreatedDateFilter.excludesBefore, CreatedDateFilter.excludesAfter,
        decide_eq_false_iff_not, Int.not_lt, le_captureDay, DateTime.lt_def] <;> omega

theorem passes_instant_date (b : DateTime) (a : NaiveDate) :
    (∃ t offset, Passes (.instant b) (.captureDate a) t offset) ↔
      b.secs - 86399 < (a.day + 1) * 86400 := by
  constructor
  · rintro ⟨t, offset, hwide, hbefore, hafter⟩
    simp only [CreatedDateFilter.excludesBefore, CreatedDateFilter.excludesAfter,
      decide_eq_false_iff_not, Int.not_lt, captureDay_le, DateTime.lt_def] at hbefore hafter
    omega
  · intro h
    refine ⟨b, -86399, by decide, ?_, ?_⟩ <;>
      simp only [CreatedDateFilter.excludesBefore, CreatedDateFilter.excludesAfter,
        decide_eq_false_iff_not, Int.not_lt, captureDay_le, DateTime.lt_def] <;> omega

/-! ## the bounds of a window -/

theorem DateTime.lt_whole (h : b.nanos = 0) : a < b ↔ a.secs < b.secs := by
  rw [DateTime.lt_def]
  omega

theorem NaiveDate.minDay_lt (h : date ≠ .min) : minDay < date.day := by
  have hle := date.minDay_le
  by_contra hnot
  obtain ⟨day, hmin, hmax⟩ := date
  have hday : ¬minDay < day := hnot
  obtain rfl : day = minDay := by omega
  exact h rfl

/-- Time can be taken from midnight, but on the first day of the calendar. -/
theorem midnight_sub (date : NaiveDate) {seconds : Int} (hpos : 0 < seconds)
    (hle : seconds ≤ 86400) :
    if date = .min then date.midnight.add (-seconds) = none
    else ∃ t, date.midnight.add (-seconds) = some t ∧ t.secs = date.day * 86400 - seconds ∧
      t.nanos = 0 := by
  have hrange := @DateTime.isSome_add date.midnight (-seconds)
  have hlast := date.midnight.le_maxDay
  have hsecs : date.midnight.secs = date.day * 86400 := rfl
  rw [hsecs] at hrange hlast
  split
  · next hmin =>
      subst hmin
      rw [← Option.not_isSome_iff_eq_none, hrange]
      have hday : NaiveDate.min.day = minDay := rfl
      omega
  · next hmin =>
      have hday := NaiveDate.minDay_lt hmin
      obtain ⟨t, ht⟩ := Option.isSome_iff_exists.mp (hrange.mpr (by omega))
      exact ⟨t, ht, DateTime.add_eq_some ht⟩

theorem firstInstantAfter_spec (date : NaiveDate) :
    ∃ first, CreatedDateFilter.firstInstantAfter date = some first ∧
      ∀ t : DateTime, first.any (fun last => last ≤ t) = true ↔
        ¬t.secs - 86399 < (date.day + 1) * 86400 := by
  unfold CreatedDateFilter.firstInstantAfter NaiveDate.succOpt
  split
  · next hnone =>
      refine ⟨none, rfl, fun t => ?_⟩
      have hlast := t.le_maxDay
      have hday := date.le_maxDay
      simp at hnone ⊢
      omega
  · next next hsome =>
      split at hsome
      · next hle =>
          cases hsome
          generalize hnext : NaiveDate.mk _ _ _ = next
          have hday : next.day = date.day + 1 := by rw [← hnext]
          have hsecs : next.midnight.secs = next.day * 86400 := rfl
          have hfirst := next.minDay_le
          obtain ⟨last, hlast⟩ := Option.isSome_iff_exists.mp
            (@DateTime.isSome_add next.midnight CreatedDateFilter.widestOffsetSeconds |>.mpr (by
              unfold CreatedDateFilter.widestOffsetSeconds
              omega))
          obtain ⟨hlastSecs, hnanos⟩ := DateTime.add_eq_some hlast
          refine ⟨some last, by rw [hlast]; rfl, fun t => ?_⟩
          unfold CreatedDateFilter.widestOffsetSeconds at hlastSecs
          rw [Option.any_some, decide_eq_true_eq, DateTime.le_def, DateTime.lt_whole hnanos]
          omega
      · cases hsome

theorem strictly_sound {before after : CreatedDateFilter}
    (h : before ≠ .captureDate NaiveDate.min) :
    ∃ empty, before.isStrictlyAfter after = some empty ∧
      (empty = true ↔ ¬∃ t offset, Passes before after t offset) := by
  cases before with
  | instant before =>
      cases after with
      | instant after =>
          exact ⟨_, rfl, by rw [passes_instants, decide_eq_true_eq, not_not]⟩
      | captureDate after =>
          obtain ⟨first, hfirst, hany⟩ := firstInstantAfter_spec after
          refine ⟨_, by rw [CreatedDateFilter.isStrictlyAfter, hfirst]; rfl, ?_⟩
          rw [passes_instant_date, hany]
  | captureDate before =>
      cases after with
      | instant after =>
          have hsub := @midnight_sub before CreatedDateFilter.widestOffsetSeconds
            (by decide) (by decide)
          rw [if_neg fun hmin => h (congrArg _ hmin)] at hsub
          obtain ⟨earliest, hearliest, hsecs, hnanos⟩ := hsub
          refine ⟨_, by rw [CreatedDateFilter.isStrictlyAfter,
            CreatedDateFilter.earliestInstantOn, hearliest]; rfl, ?_⟩
          unfold CreatedDateFilter.widestOffsetSeconds at hsecs
          rw [passes_date_instant, decide_eq_true_eq, DateTime.lt_whole hnanos]
          omega
      | captureDate after =>
          exact ⟨_, rfl, by rw [passes_dates, decide_eq_true_eq, not_not]⟩

/-- **A window of two bounds** is judged by the offsets that there are, unless it begins with the
first day of the calendar. -/
theorem sound_iff (before after : CreatedDateFilter) :
    Sound before after ↔ before ≠ .captureDate NaiveDate.min := by
  constructor
  · rintro ⟨-, bound, hbound, -⟩ rfl
    have hsub := @midnight_sub .min 86400 (by decide) (by decide)
    rw [if_pos rfl] at hsub
    rw [CreatedDateFilter.conservativeUtcLowerBound, hsub] at hbound
    cases hbound
  · intro h
    refine ⟨strictly_sound h, ?_⟩
    cases before with
    | instant before =>
        refine ⟨before, rfl, fun t offset _ hpasses => ?_⟩
        exact of_decide_eq_false hpasses
    | captureDate before =>
        have hsub := @midnight_sub before 86400 (by decide) (by decide)
        rw [if_neg fun hmin => h (congrArg _ hmin)] at hsub
        obtain ⟨bound, hbound, hsecs, hnanos⟩ := hsub
        refine ⟨bound, hbound, fun t offset hwide hpasses => ?_⟩
        simp only [CreatedDateFilter.excludesBefore, decide_eq_false_iff_not, Int.not_lt,
          le_captureDay] at hpasses
        rw [DateTime.le_def, DateTime.lt_def]
        omega

/-- **When the bounds on creation dates keep to the calendar.** -/
theorem createdDateFilter_iff (host : Host) (s : String) (before after : CreatedDateFilter) :
    (parseCreatedDateFilter host s).isSome = true ∧ Sound before after ↔
      InCalendar host s ∧ before ≠ .captureDate NaiveDate.min := by
  rw [parse_isSome_iff, sound_iff]

/-- On July 1, 2026. -/
def summer : Host where
  now := ⟨1782864000, 0, by decide, by decide, by decide⟩
  now_nanos := by decide
  parseDate := fun _ => none
  parseLocal := fun _ => none

/-- A hundred million days before that there was no calendar. -/
theorem interval_overflows : parseCreatedDateFilter summer "100000000d" = none := by
  decide +kernel

end Kei.Config
