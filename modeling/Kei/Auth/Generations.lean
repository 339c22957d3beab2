import Kei.Auth.Session

/-!
# Kei.Auth.Generations

What the generations of an account keep, as long as none is left half written.

The current generation is the one in the lock file, or the one that is being
written.  Every session has one that is not later, and the session with the
lock knows how far the others are behind.
-/

namespace Kei.Auth

open Str Relation World

/-! ## texts -/

theorem isWhitespace_of_isDigit {c : Char} (h : c.isDigit = true) : isWhitespace c = false := by
  have hdigit : c.toNat ≤ 57 ∧ 48 ≤ c.toNat := by
    simp only [Char.isDigit, Bool.and_eq_true, decide_eq_true_eq] at h
    exact ⟨h.2, h.1⟩
  simp [isWhitespace]
  omega

theorem read_toString {n : Nat} (h : n < 2 ^ 64) : readLockGeneration (toString n) = some n := by
  have hlead : NoLead (toString n).toList := fun c hc =>
    isWhitespace_of_isDigit (isDigit_of_mem_toString (List.mem_of_mem_head? hc))
  have htrail : NoTrail (toString n).toList := fun c hc =>
    isWhitespace_of_isDigit (isDigit_of_mem_toString (List.mem_of_mem_getLast? hc))
  have hempty : toString n ≠ "" := fun hn => by
    have hdigits := toList_toString n
    rw [hn] at hdigits
    exact Nat.toDigits_ne_nil hdigits.symm
  rw [readLockGeneration, trim_of_noLead_noTrail hlead htrail]
  simp only [hempty, if_false, parseU64_toString h]

/-! ## the invariant -/

/-- What a session with the lock knows of the current generation. -/
def Session.Fits (text : String) (current : Option Nat) : Session → Prop
  | .idle generation => ∀ c, current = some c → c ≤ generation + 1
  | .truncating generation =>
      (∀ c, current = some c → c ≤ generation + 1) ∧ generation + 1 < 2 ^ 64
  | .writing generation left => current = some (generation + 1) ∧
      text ++ String.ofList left = toString (generation + 1) ∧ generation + 1 < 2 ^ 64
  | .syncing generation => current = some (generation + 1)
  | .removing generation _ => current = some generation
  | _ => True

/-- What a session with the lock knows of the generation of another one. -/
def Session.Ahead : Session → Option Nat → Prop
  | .idle generation, other | .truncating generation, other | .writing generation _, other
  | .syncing generation, other => ∀ g, other = some g → g ≤ generation
  | .removing generation _, other => ∀ g, other = some g → g < generation
  | _, _ => True

/-- The sessions are in order, and `current` is the current generation. -/
structure Orderly (w : World) (current : Option Nat) : Prop where
  holds : ∀ i, (w.sessions i).holdsLock = true → w.holder = some i
  text : w.Settled → readLockGeneration w.text = current
  behind : ∀ i g, (w.sessions i).generation = some g → ∃ c, current = some c ∧ g ≤ c
  fits : ∀ i, (w.sessions i).Fits w.text current
  ahead : ∀ i j, j ≠ i → (w.sessions i).Ahead (w.sessions j).generation

variable {account : String} {w w' : World} {current current' : Option Nat} {i : Nat}
  {before session : Session}

/-- The generation is not lower. -/
def NotLower (current current' : Option Nat) : Prop :=
  ∀ c, current = some c → ∃ c', current' = some c' ∧ c ≤ c'

theorem NotLower.refl : NotLower current current := fun c hc => ⟨c, hc, Nat.le_refl c⟩

theorem NotLower.trans {current'' : Option Nat} (h : NotLower current current')
    (h' : NotLower current' current'') : NotLower current current'' := by
  intro c hc
  obtain ⟨c', hc', hle⟩ := h c hc
  obtain ⟨c'', hc'', hle'⟩ := h' c' hc'
  exact ⟨c'', hc'', Nat.le_trans hle hle'⟩

theorem fits_of_not_holdsLock {text : String} (h : session.holdsLock = false) :
    session.Fits text current := by
  cases session <;> simp [Session.holdsLock, Session.Fits] at h ⊢

theorem ahead_of_not_holdsLock {other : Option Nat} (h : session.holdsLock = false) :
    session.Ahead other := by
  cases session <;> simp [Session.holdsLock, Session.Ahead] at h ⊢

theorem not_isWriting_of_not_holdsLock (h : session.holdsLock = false) :
    session.isWriting = false := by
  cases session <;> simp [Session.holdsLock, Session.isWriting] at h ⊢

/-- Nobody else has the lock. -/
def Alone (w : World) (i : Nat) : Prop := ∀ j, j ≠ i → (w.sessions j).holdsLock = false

theorem Orderly.alone (h : Orderly w current) (hholder : w.holder = none ∨ w.holder = some i) :
    Alone w i := by
  intro j hj
  cases hholds : (w.sessions j).holdsLock with
  | false => rfl
  | true =>
      have hother := h.holds j hholds
      obtain hnone | hsome := hholder
      · simp [hnone] at hother
      · simp only [hsome, Option.some.injEq] at hother
        exact absurd hother.symm hj

theorem Orderly.alone_of_holdsLock (h : Orderly w current)
    (hholds : (w.sessions i).holdsLock = true) : Alone w i :=
  h.alone (.inr (h.holds i hholds))

theorem Alone.settled (h : Alone w i) (hi : (w.sessions i).isWriting = false) : w.Settled := by
  intro j
  by_cases hj : j = i
  · rw [hj, hi]
  · exact not_isWriting_of_not_holdsLock (h j hj)

@[simp] theorem set_self : (w.set i session).sessions i = session := by simp [World.set]

theorem set_other {j : Nat} (h : j ≠ i) : (w.set i session).sessions j = w.sessions j := by
  simp [World.set, h]

theorem Orderly.alone_step (h : Orderly w current) (halone : Alone w i)
    (hsessions : w'.sessions = (w.set i session).sessions) (hgrows : NotLower current current')
    (hholds : session.holdsLock = true → w'.holder = some i)
    (htext : session.isWriting = false → readLockGeneration w'.text = current')
    (hbehind : ∀ g, session.generation = some g → ∃ c, current' = some c ∧ g ≤ c)
    (hfits : session.Fits w'.text current')
    (hahead : ∀ j, j ≠ i → session.Ahead (w.sessions j).generation) : Orderly w' current' := by
  have hself : w'.sessions i = session := by rw [hsessions, set_self]
  have hother : ∀ j, j ≠ i → w'.sessions j = w.sessions j := fun j hj => by
    rw [hsessions, set_other hj]
  refine ⟨fun j hj => ?_, fun hsettled => ?_, fun j g hg => ?_, fun j => ?_, fun j k hk => ?_⟩
  · by_cases hji : j = i
    · rw [hji, hself] at hj
      rw [hji, hholds hj]
    · simp [hother j hji, halone j hji] at hj
  · have hi := hsettled i
    rw [hself] at hi
    exact htext hi
  · by_cases hji : j = i
    · rw [hji, hself] at hg
      exact hbehind g hg
    · rw [hother j hji] at hg
      obtain ⟨c, hc, hle⟩ := h.behind j g hg
      obtain ⟨c', hc', hle'⟩ := hgrows c hc
      exact ⟨c', hc', Nat.le_trans hle hle'⟩
  · by_cases hji : j = i
    · rw [hji, hself]
      exact hfits
    · rw [hother j hji]
      exact fits_of_not_holdsLock (halone j hji)
  · by_cases hji : j = i
    · subst hji
      rw [hself, hother k hk]
      exact hahead k hk
    · rw [hother j hji]
      exact ahead_of_not_holdsLock (halone j hji)

theorem Orderly.aside (h : Orderly w current) (hs : w.sessions i = before)
    (hsessions : w'.sessions = (w.set i session).sessions) (htext : w'.text = w.text)
    (hholder : ∀ j, j ≠ i → w.holder = some j → w'.holder = some j)
    (hbefore : before.holdsLock = false) (hafter : session.holdsLock = false)
    (hgeneration : session.generation = before.generation) : Orderly w' current := by
  have hself : w'.sessions i = session := by rw [hsessions, set_self]
  have hother : ∀ j, j ≠ i → w'.sessions j = w.sessions j := fun j hj => by
    rw [hsessions, set_other hj]
  have hknown : ∀ j, (w'.sessions j).generation = (w.sessions j).generation := fun j => by
    by_cases hji : j = i
    · rw [hji, hself, hgeneration, hs]
    · rw [hother j hji]
  refine ⟨fun j hj => ?_, fun hsettled => ?_, fun j g hg => ?_, fun j => ?_, fun j k hk => ?_⟩
  · by_cases hji : j = i
    · simp [hji, hself, hafter] at hj
    · rw [hother j hji] at hj
      exact hholder j hji (h.holds j hj)
  · rw [htext]
    refine h.text (fun j => ?_)
    by_cases hji : j = i
    · rw [hji, hs]
      exact not_isWriting_of_not_holdsLock hbefore
    · rw [← hother j hji]
      exact hsettled j
  · exact h.behind j g (hknown j ▸ hg)
  · by_cases hji : j = i
    · rw [hji, hself]
      exact fits_of_not_holdsLock hafter
    · rw [hother j hji, htext]
      exact h.fits j
  · by_cases hji : j = i
    · rw [hji, hself]
      exact ahead_of_not_holdsLock hafter
    · rw [hother j hji, hknown k]
      exact h.ahead j k hk

/-- A step of the session with the lock that changes neither the lock file nor a generation. -/
theorem Orderly.keep (h : Orderly w current) (hs : w.sessions i = before)
    (hsessions : w'.sessions = (w.set i session).sessions) (htext : w'.text = w.text)
    (hi : before.holdsLock = true) (hwriting : before.isWriting = false)
    (hgeneration : session.generation = before.generation)
    (hholds : session.holdsLock = true → w'.holder = w.holder)
    (hfits : before.Fits w.text current → session.Fits w.text current)
    (hahead : ∀ other, before.Ahead other → session.Ahead other) : Orderly w' current := by
  subst hs
  have halone := h.alone_of_holdsLock hi
  refine h.alone_step halone hsessions .refl (fun hholds' => ?_) (fun _ => ?_) (fun g hg => ?_) ?_
    (fun j hj => ?_)
  · rw [hholds hholds', h.holds i hi]
  · rw [htext]
    exact h.text (halone.settled hwriting)
  · exact h.behind i g (hgeneration ▸ hg)
  · rw [htext]
    exact hfits (h.fits i)
  · exact hahead _ (h.ahead i j hj)

/-- A session that is gone has left the lock file as it was, if it was not writing. -/
theorem Orderly.drop (h : Orderly w current) (hs : w.sessions i = before)
    (hwriting : before.isWriting = false) : Orderly (w.drop i) current := by
  have hsessions : (w.drop i).sessions = (w.set i (.closed before.generation)).sessions := by
    rw [← hs]
    rfl
  cases hholds : before.holdsLock with
  | true =>
      exact h.keep hs hsessions rfl hholds hwriting rfl nofun (fun _ => trivial)
        (fun _ _ => trivial)
  | false =>
      refine h.aside hs hsessions rfl (fun j hj hholder => ?_) hholds rfl rfl
      have hi : ¬w.holder = some i := by
        rw [hholder, Option.some.injEq]
        exact hj
      simp only [World.drop, hi, if_false]
      exact hholder

variable {generation : Nat}

/-- The session that reads the generation is as far as all others. -/
theorem Orderly.enter (h : Orderly w current) (hs : w.sessions i = before)
    (hi : before.holdsLock = true) (hwriting : before.isWriting = false)
    (hread : readLockGeneration w.text = some generation) :
    Orderly (w.set i (.idle generation)) current := by
  subst hs
  have halone := h.alone_of_holdsLock hi
  have hcurrent : current = some generation := by
    rw [← h.text (halone.settled hwriting), hread]
  have hlast : ∀ c, current = some c → c = generation := fun c hc => by
    simpa using hc.symm.trans hcurrent
  refine h.alone_step halone rfl .refl (fun _ => h.holds i hi) (fun _ => ?_) (fun g hg => ?_)
    (fun c hc => ?_) (fun j hj g hg => ?_)
  · rw [hcurrent]
    exact hread
  · have hg' : generation = g := by simpa [Session.generation] using hg
    exact ⟨generation, hcurrent, Nat.le_of_eq hg'.symm⟩
  · have hc' := hlast c hc
    omega
  · obtain ⟨c, hc, hle⟩ := h.behind j g hg
    have hc' := hlast c hc
    omega

/-- The generation that a session writes is the current one from its first digit on. -/
theorem Orderly.write (h : Orderly w current) {generation : Nat} (hs : w.sessions i = before)
    (hsessions : w'.sessions = (w.set i session).sessions) (hholder : w'.holder = w.holder)
    (hi : before.holdsLock = true) (hafter : session.generation = some generation)
    (hgrows : ∀ c, current = some c → c ≤ generation + 1)
    (htext : session.isWriting = false → readLockGeneration w'.text = some (generation + 1))
    (hfits : session.Fits w'.text (some (generation + 1)))
    (hahead : ∀ other, before.Ahead other → session.Ahead other) :
    ∃ current', NotLower current current' ∧ Orderly w' current' := by
  subst hs
  refine ⟨some (generation + 1), fun c hc => ⟨_, rfl, hgrows c hc⟩,
    h.alone_step (h.alone_of_holdsLock hi) hsessions (fun c hc => ⟨_, rfl, hgrows c hc⟩)
      (fun _ => ?_) htext (fun g hg => ?_) hfits (fun j hj => hahead _ (h.ahead i j hj))⟩
  · rw [hholder, h.holds i hi]
  · have hg' : generation = g := by simpa [hafter] using hg
    exact ⟨generation + 1, rfl, by omega⟩

/-! ## runs -/

theorem Orderly.fits_of (h : Orderly w current) (hs : w.sessions i = before) :
    before.Fits w.text current := hs ▸ h.fits i

theorem le_of_eq_some {n : Nat} (h : current = some n) (c : Nat) (hc : current = some c) :
    c ≤ n := by
  have hc' : n = c := by simpa using h.symm.trans hc
  omega

theorem toString_eq_ofList (n : Nat) : "" ++ String.ofList (toString n).toList = toString n := by
  rw [String.empty_append, String.ofList_toList]

/-- **A clean step keeps the sessions in order.** -/
theorem clean_step (h : Orderly w current) (hstep : CleanStep account w w') :
    ∃ current', NotLower current current' ∧ Orderly w' current' := by
  obtain ⟨hstep, hclean⟩ := hstep
  -- Most steps change neither the lock file nor a generation.
  have hsame : Orderly w' current → ∃ current', NotLower current current' ∧ Orderly w' current' :=
    fun h' => ⟨current, .refl, h'⟩
  cases hstep with
  | openFile i expected hs => exact hsame (h.aside hs rfl rfl (fun _ _ hj => hj) rfl rfl rfl)
  | @tryLock i expected hs hfree =>
      have halone : Alone w i := h.alone (.inl hfree)
      have hsettled : w.Settled := halone.settled (by rw [hs]; rfl)
      exact hsame (h.alone_step halone rfl .refl (fun _ => rfl) (fun _ => h.text hsettled) nofun
        trivial (fun _ _ => trivial))
  | lockFails hs => exact hsame (h.drop hs rfl)
  | read hs hread _ => exact hsame (h.enter hs rfl rfl hread)
  | readFails hs => exact hsame (h.drop hs rfl)
  | discard hs hfits =>
      exact hsame (h.keep hs rfl rfl rfl rfl rfl (fun _ => rfl) (fun hidle => ⟨hidle, hfits⟩)
        (fun _ hahead => hahead))
  | @truncate i generation hs =>
      obtain ⟨hle, hlt⟩ := h.fits_of hs
      exact h.write hs rfl rfl rfl rfl hle nofun ⟨rfl, toString_eq_ofList _, hlt⟩
        (fun _ hahead => hahead)
  | truncateFails hs =>
      exact hsame (h.keep hs rfl rfl rfl rfl rfl (fun _ => rfl) And.left (fun _ hahead => hahead))
  | @write i generation written left hs hleft =>
      obtain ⟨hcurrent, htext, hlt⟩ := h.fits_of hs
      rw [String.ofList_append, ← String.append_assoc] at htext
      exact h.write hs rfl rfl rfl rfl (le_of_eq_some hcurrent) nofun ⟨rfl, htext, hlt⟩
        (fun _ hahead => hahead)
  | @writeAll i generation written hs =>
      obtain ⟨hcurrent, htext, hlt⟩ := h.fits_of hs
      have hread : readLockGeneration (w.text ++ String.ofList written) =
          some (generation + 1) := by
        rw [htext, read_toString hlt]
      exact h.write hs rfl rfl rfl rfl (le_of_eq_some hcurrent) (fun _ => hread) rfl
        (fun _ hahead => hahead)
  | @writeFails i generation left hs =>
      exact absurd ⟨i, generation, left, hs, by simp [Session.isWriting]⟩ hclean
  | @sync i generation hs =>
      have hcurrent : current = some (generation + 1) := h.fits_of hs
      have halone : Alone w i := h.alone_of_holdsLock (by rw [hs]; rfl)
      have hsettled : w.Settled := halone.settled (by rw [hs]; rfl)
      refine hsame (h.alone_step halone rfl .refl (fun _ => h.holds i (by rw [hs]; rfl))
        (fun _ => h.text hsettled) (fun g hg => ?_) hcurrent (fun j hj g hg => ?_))
      · have hg' : generation + 1 = g := by simpa [Session.generation] using hg
        exact ⟨generation + 1, hcurrent, by omega⟩
      · have hahead := h.ahead i j hj
        rw [hs] at hahead
        have hle := hahead g hg
        omega
  | @syncFails i generation hs =>
      exact hsame (h.keep hs rfl rfl rfl rfl rfl (fun _ => rfl) le_of_eq_some
        (fun _ hahead => hahead))
  | remove hs =>
      exact hsame (h.keep hs rfl rfl rfl rfl rfl (fun _ => rfl) id (fun _ hahead => hahead))
  | removeFails hs =>
      exact hsame (h.keep hs rfl rfl rfl rfl rfl (fun _ => rfl) id (fun _ hahead => hahead))
  | @discarded i generation hs =>
      exact hsame (h.keep hs rfl rfl rfl rfl rfl (fun _ => rfl)
        (fun hremoving c hc => Nat.le_succ_of_le (le_of_eq_some hremoving c hc))
        (fun _ hahead g hg => Nat.le_of_lt (hahead g hg)))
  | unlock hs =>
      exact hsame (h.keep hs rfl rfl rfl rfl rfl nofun (fun _ => trivial) (fun _ _ => trivial))
  | release hs => exact hsame (h.aside hs rfl rfl (fun _ _ hj => hj) rfl rfl rfl)
  | @reacquire i generation hs hfree =>
      have halone : Alone w i := h.alone hfree
      have hsettled : w.Settled := halone.settled (by rw [hs]; rfl)
      exact hsame (h.alone_step halone rfl .refl (fun _ => rfl) (fun _ => h.text hsettled)
        (fun g hg => h.behind i g (by rw [hs]; exact hg)) trivial (fun _ _ => trivial))
  | reread hs hread => exact hsame (h.enter hs rfl rfl hread)
  | refuse hs =>
      exact hsame (h.keep hs rfl rfl rfl rfl rfl (fun _ => rfl) (fun _ => trivial)
        (fun _ _ => trivial))
  | unlockRefused hs =>
      exact hsame (h.keep hs rfl rfl rfl rfl rfl nofun (fun _ => trivial) (fun _ _ => trivial))
  | unlockRefusedFails hs =>
      exact hsame (h.keep hs rfl rfl rfl rfl rfl nofun (fun _ => trivial) (fun _ _ => trivial))
  | stop i =>
      cases hs : w.sessions i with
      | writing generation left =>
          refine absurd ⟨i, generation, left, hs, ?_⟩ hclean
          simp [World.drop, World.set, Session.isWriting]
      | _ => exact hsame (h.drop hs rfl)

theorem clean_run (h : Orderly w current) (hrun : ReflTransGen (CleanStep account) w w') :
    ∃ current', NotLower current current' ∧ Orderly w' current' := by
  induction hrun with
  | refl => exact ⟨current, .refl, h⟩
  | tail _ hstep ih =>
      obtain ⟨mid, hmid, h'⟩ := ih
      obtain ⟨last, hlast, h''⟩ := clean_step h' hstep
      exact ⟨last, hmid.trans hlast, h''⟩

theorem orderly_initial (lockFile : Option String) (authFiles : List String) :
    Orderly (World.initial lockFile authFiles)
      (readLockGeneration (World.initial lockFile authFiles).text) :=
  ⟨nofun, fun _ => rfl, nofun, fun _ => trivial, fun _ _ _ => trivial⟩

theorem Orderly.reads (h : Orderly w current) (hs : w.sessions i = before)
    (hi : before.holdsLock = true) (hwriting : before.isWriting = false)
    (hread : readLockGeneration w.text = some generation) : current = some generation := by
  subst hs
  rw [← h.text ((h.alone_of_holdsLock hi).settled hwriting), hread]

theorem changed {j generation : Nat} (hafter : (w.set j session).sessions i = .idle generation)
    (hbefore : w.sessions i ≠ .idle generation) : i = j ∧ session = .idle generation := by
  by_cases hij : i = j
  · subst hij
    rw [set_self] at hafter
    exact ⟨rfl, hafter⟩
  · rw [set_other hij] at hafter
    exact absurd hafter hbefore

/-- Only a session that reads the generation it has or expects is let in again. -/
theorem step_lets_in (hstep : Step account w w')
    (hbefore : w.sessions i = .reacquired generation ∨ w.sessions i = .acquired (some generation))
    (hafter : w'.sessions i = .idle generation) : readLockGeneration w.text = some generation := by
  have hidle : w.sessions i ≠ .idle generation := by
    obtain hs | hs := hbefore <;> simp [hs]
  cases hstep <;> (obtain ⟨rfl, hsession⟩ := changed hafter hidle; simp_all)

/-- The generation of a session that has to be let in before it does anything. -/
def Session.outsideAt : Session → Option Nat
  | .unlocked generation | .released generation | .reacquired generation | .refused generation =>
      some generation
  | .closed generation => generation
  | _ => none

theorem outsideAt_of_releasedAt (h : session.releasedAt = some generation) :
    session.outsideAt = some generation := by
  cases session <;> simp_all [Session.releasedAt, Session.outsideAt]

theorem generation_of_outsideAt (h : session.outsideAt = some generation) :
    session.generation = some generation := by
  cases session <;> simp_all [Session.outsideAt, Session.generation]

theorem set_outsideAt {j generation : Nat} (h : (w.sessions i).outsideAt = some generation)
    (hj : i = j → session.outsideAt = some generation) :
    ((w.set j session).sessions i).outsideAt = some generation := by
  by_cases hij : i = j
  · subst hij
    rw [set_self, hj rfl]
  · rw [set_other hij, h]

theorem step_outside (hstep : Step account w w') (h : (w.sessions i).outsideAt = some generation)
    (hread : w.sessions i = .reacquired generation → readLockGeneration w.text ≠ some generation) :
    (w'.sessions i).outsideAt = some generation := by
  have hdrop (j : Nat) : ((w.drop j).sessions i).outsideAt = some generation :=
    set_outsideAt h (fun hij => by
      subst hij
      exact generation_of_outsideAt h)
  cases hstep <;> first
    | exact hdrop _
    | exact set_outsideAt h (fun hij => by subst hij; simp_all [Session.outsideAt])

theorem clean_run_outside (h : Orderly w current) (hbehind : ∃ c, current = some c ∧ generation < c)
    (houtside : (w.sessions i).outsideAt = some generation)
    (hrun : ReflTransGen (CleanStep account) w w') :
    ∃ current', Orderly w' current' ∧ (∃ c, current' = some c ∧ generation < c) ∧
      (w'.sessions i).outsideAt = some generation := by
  induction hrun with
  | refl => exact ⟨current, h, hbehind, houtside⟩
  | @tail v v' _ hstep ih =>
      obtain ⟨mid, h', ⟨c, hc, hlt⟩, houtside'⟩ := ih
      obtain ⟨last, hlast, h''⟩ := clean_step h' hstep
      obtain ⟨c', hc', hle⟩ := hlast c hc
      refine ⟨last, h'', ⟨c', hc', Nat.lt_of_lt_of_le hlt hle⟩, ?_⟩
      refine step_outside hstep.1 houtside' (fun hs hread => ?_)
      have hc'' : generation = c := by simpa using (h'.reads hs rfl rfl hread).symm.trans hc
      omega

/-- **As long as no generation is left half written, the sessions are guarded.** -/
theorem cleanSteps_guarded (account : String) (lockFile : Option String)
    (authFiles : List String) :
    Guarded (CleanStep account) (World.initial lockFile authFiles) := by
  have horderly (w : World)
      (hrun : ReflTransGen (CleanStep account) (World.initial lockFile authFiles) w) :
      ∃ current, Orderly w current := by
    obtain ⟨current, -, h⟩ := clean_run (orderly_initial lockFile authFiles) hrun
    exact ⟨current, h⟩
  refine ⟨fun w hrun i j hi hj => ?_, fun w w' hrun hrun' hsettled hsettled' g g' hg hg' => ?_,
    fun w w' w'' hrun hrun' hstep d next left i g hremoving hreleased => ?_⟩
  · obtain ⟨current, h⟩ := horderly w hrun
    have hholder := (h.holds i hi).symm.trans (h.holds j hj)
    simpa using hholder
  · obtain ⟨current, h⟩ := horderly w hrun
    obtain ⟨current', hgrows, h'⟩ := clean_run h hrun'
    have hcurrent : current = some g := by rw [← h.text hsettled, hg]
    have hcurrent' : current' = some g' := by rw [← h'.text hsettled', hg']
    obtain ⟨c, hc, hle⟩ := hgrows g hcurrent
    have hc' : g' = c := by simpa using hcurrent'.symm.trans hc
    omega
  · obtain ⟨current, h⟩ := horderly w hrun
    have hcurrent : current = some next := h.fits_of hremoving
    -- The released session is behind the one that removes files.
    have hbehind : g < next := by
      have hid : i ≠ d := by
        rintro rfl
        simp [hremoving, Session.releasedAt] at hreleased
      have hahead := h.ahead d i hid
      rw [hremoving, generation_of_outsideAt (outsideAt_of_releasedAt hreleased)] at hahead
      exact hahead g rfl
    obtain ⟨current', h', ⟨c, hc, hlt⟩, houtside⟩ :=
      clean_run_outside h ⟨next, hcurrent, hbehind⟩ (outsideAt_of_releasedAt hreleased) hrun'
    -- Whoever reads a generation now reads a later one.
    have hlater : ∀ {j : Nat} {before : Session}, w'.sessions j = before →
        before.holdsLock = true → before.isWriting = false →
        readLockGeneration w'.text = some g → False := by
      intro j before hs hi hwriting hread
      have hc' : g = c := by simpa using (h'.reads hs hi hwriting hread).symm.trans hc
      omega
    refine ⟨?_, ?_⟩
    · rintro ⟨generation, hs, hs'⟩
      obtain rfl : generation = g := by simpa [hs, Session.outsideAt] using houtside
      exact hlater hs rfl rfl (step_lets_in hstep.1 (.inl hs) hs')
    · rintro ⟨j, hs, hs'⟩
      exact hlater hs rfl rfl (step_lets_in hstep.1 (.inr hs) hs')

/-! ## a generation that is left half written -/

/-- Session 0 is released, and session 1 removes the files. -/
def removingWorld : World where
  lockFile := some "1"
  holder := some 1
  authFiles := []
  sessions
    | 0 => .released 0
    | 1 => .removing 1 (persistedAuthFiles "u")
    | _ => .absent

/-- Session 1 is gone, and session 2 stopped before it wrote the next generation. -/
def tornWorld : World where
  lockFile := some ""
  holder := some 0
  authFiles := []
  sessions
    | 0 => .reacquired 0
    | 1 => .closed (some 1)
    | 2 => .closed (some 1)
    | _ => .absent

theorem sessions_ext {w w' : World} (hlockFile : w.lockFile = w'.lockFile)
    (hholder : w.holder = w'.holder) (hauthFiles : w.authFiles = w'.authFiles)
    (hsessions : ∀ i, w.sessions i = w'.sessions i) : w = w' := by
  cases w
  cases w'
  simp_all
  exact funext hsessions

theorem read_empty : readLockGeneration "" = some 0 := by rfl

/-- A step is clean if its session was not writing, or has written all. -/
theorem clean (hstep : Step account w w') (hsessions : w'.sessions = (w.set i session).sessions)
    (hwritten : ∀ generation left, w.sessions i = .writing generation left →
      session = .syncing generation) : CleanStep account w w' := by
  refine ⟨hstep, fun ⟨j, generation, left, hj, hidle, hnot⟩ => ?_⟩
  rw [hsessions] at hidle hnot
  by_cases hji : j = i
  · subst hji
    exact hnot (set_self.trans (hwritten generation left hj))
  · rw [set_other hji, hj] at hidle
    cases hidle

theorem runs_to_removing :
    ReflTransGen (CleanStep "u") (World.initial none []) removingWorld := by
  have hrun : ∃ w, ReflTransGen (CleanStep "u") (World.initial none []) w ∧ w = removingWorld := by
    refine ⟨_, .head (clean (.openFile 0 none rfl) rfl nofun) <|
      .head (clean (.tryLock (i := 0) rfl rfl) rfl nofun) <|
      .head (clean (.read (i := 0) rfl read_empty (.inl rfl)) rfl nofun) <|
      .head (clean (.unlock (i := 0) rfl) rfl nofun) <|
      .head (clean (.release (i := 0) rfl) rfl nofun) <|
      .head (clean (.openFile 1 none rfl) rfl nofun) <|
      .head (clean (.tryLock (i := 1) rfl rfl) rfl nofun) <|
      .head (clean (.read (i := 1) rfl read_empty (.inl rfl)) rfl nofun) <|
      .head (clean (.discard (i := 1) rfl (by simp)) rfl nofun) <|
      .head (clean (.truncate (i := 1) rfl) rfl nofun) <|
      .head (clean (.writeAll (i := 1) rfl) rfl (fun _ _ h => by injection h with hg; rw [hg])) <|
      .head (clean (.sync (i := 1) rfl) rfl nofun) .refl, ?_⟩
    refine sessions_ext rfl rfl rfl (fun i => ?_)
    match i with
    | 0 => rfl
    | 1 => rfl
    | n + 2 => simp [World.set, removingWorld, World.initial]
  obtain ⟨w, hrun, rfl⟩ := hrun
  exact hrun

/-- The released session gets the lock again after the discard, and is refused. -/
theorem cleanSteps_guarded_refused : ∃ w w', ReflTransGen (CleanStep "u") removingWorld w ∧
    CleanStep "u" w w' ∧ w.sessions 0 = .reacquired 0 ∧ w'.sessions 0 = .refused 0 ∧
    ¬Reacquires 0 w w' ∧ ¬OpensAfterRelease 0 w w' := by
  obtain ⟨w, hrun, hstep, hw⟩ : ∃ w, ReflTransGen (CleanStep "u") removingWorld w ∧
      CleanStep "u" w (w.set 0 (.refused 0)) ∧ w.sessions 0 = .reacquired 0 :=
    ⟨_, .head (clean (.stop 1) rfl nofun) <|
      .head (clean (.reacquire (i := 0) rfl (.inl rfl)) rfl nofun) .refl,
      clean (.refuse rfl) rfl nofun, rfl⟩
  exact ⟨w, _, hrun, hstep, hw, set_self,
    (cleanSteps_guarded "u" none []).bars _ _ _ runs_to_removing hrun hstep 1 1 _ 0 0 rfl rfl⟩

theorem runs_to_torn : ReflTransGen (Step "u") removingWorld tornWorld := by
  have hread : readLockGeneration "1" = some 1 := read_toString (n := 1) (by simp)
  have hrun : ∃ w, ReflTransGen (Step "u") removingWorld w ∧ w = tornWorld := by
    refine ⟨_, .head (.stop 1) <| .head (.openFile 2 none rfl) <|
      .head (.tryLock (i := 2) rfl rfl) <| .head (.read (i := 2) rfl hread (.inl rfl)) <|
      .head (.discard (i := 2) rfl (by simp)) <| .head (.truncate (i := 2) rfl) <|
      .head (.stop 2) <| .head (.reacquire (i := 0) rfl (.inl rfl)) .refl, ?_⟩
    refine sessions_ext rfl rfl rfl (fun i => ?_)
    match i with
    | 0 => rfl
    | 1 => rfl
    | 2 => rfl
    | n + 3 => simp [World.set, World.drop, removingWorld, tornWorld]
  obtain ⟨w, hrun, rfl⟩ := hrun
  exact hrun

/-- The released session is let in again, although files were removed. -/
theorem torn_not_guarded : ¬Guarded (Step "u") (World.initial none []) := by
  intro h
  have hstep : Step "u" tornWorld (tornWorld.set 0 (.idle 0)) := .reread rfl read_empty
  have hremoving : ReflTransGen (Step "u") _ _ :=
    ReflTransGen.mono (fun _ _ h => h.1) _ _ runs_to_removing
  have hbars := h.bars _ _ _ hremoving runs_to_torn hstep 1 1 (persistedAuthFiles "u") 0 0 rfl rfl
  exact hbars.1 ⟨0, rfl, rfl⟩

end Kei.Auth
