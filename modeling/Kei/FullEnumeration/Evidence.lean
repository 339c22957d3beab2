import Kei.FullEnumeration
import Mathlib.Data.List.Induction
import Mathlib.Data.List.Nodup

/-!
# Kei.FullEnumeration.Evidence

What the first round observes, how the evidence is classified, and what the
repair makes of it, each in terms of what the runs report.
-/

namespace Kei.FullEnumeration

open Str

variable {passes : List AlbumPass} {config : DownloadConfig} {controls : DownloadControls}
  {env : RunEnv}

/-! ## classification -/

variable {obs : List PassTokenObservation} {result : PassTokenResult}

theorem hasResult_eq_false : hasResult obs result = false ↔ ∀ o ∈ obs, o.result ≠ result := by
  simp [hasResult]

variable {t : String}

theorem token?_eq_some : result.token? = some t ↔ result = .present t := by
  cases result <;> simp [PassTokenResult.token?]

theorem token?_eq_none :
    result.token? = none ↔ result = .enumerationIncomplete ∨ result = .receiverDropped ∨
      result = .blank ∨ result = .missing := by
  cases result <;> simp [PassTokenResult.token?]

theorem mem_tokensOf : t ∈ tokensOf obs ↔ ∃ o ∈ obs, o.result = .present t := by
  simp [tokensOf, token?_eq_some]

theorem mem_passesWithoutTokens {key : PassKey} :
    key ∈ passesWithoutTokens obs ↔ ∃ o ∈ obs, o.result.token? = none ∧ o.pass = key := by
  simp [passesWithoutTokens, and_assoc]

/-- Every observation has the token `t`. -/
def Unanimous (obs : List PassTokenObservation) (t : String) : Prop :=
  ∀ o ∈ obs, o.result = .present t

/-- The passes a repair runs again when the first round finished. -/
def Lacking (obs : List PassTokenObservation) (o : PassTokenObservation) : Prop :=
  o.result.token? = none ∨ ((∀ o' ∈ obs, o'.result.token? ≠ none) ∧ ¬ ∃ t, Unanimous obs t)

/-- What classification says, whatever the order of the observations. -/
theorem classifyZoneTokenEvidence_cases (obs : List PassTokenObservation) :
    (∃ t, classifyZoneTokenEvidence obs = .complete t ∧ obs ≠ [] ∧ Unanimous obs t) ∨
    (∃ ks reason, classifyZoneTokenEvidence obs = .recoverable ks reason ∧
      (¬ ∃ t, Unanimous obs t) ∧ ∀ key, key ∈ ks ↔ ∃ o ∈ obs, o.pass = key ∧ Lacking obs o) ∨
    (∃ reason, classifyZoneTokenEvidence obs = .incomplete reason ∧ obs = []) := by
  by_cases hall : ∀ o ∈ obs, o.result.token? ≠ none
  · have hno {result : PassTokenResult} (h : result.token? = none) :
        hasResult obs result = false := by
      refine hasResult_eq_false.mpr (fun o ho hr => hall o ho ?_)
      rw [hr, h]
    unfold classifyZoneTokenEvidence
    rw [hno rfl, hno rfl, hno rfl, hno rfl]
    simp only [Bool.false_eq_true, if_false]
    cases htokens : tokensOf obs with
    | nil =>
        refine .inr (.inr ⟨_, rfl, ?_⟩)
        refine List.eq_nil_iff_forall_not_mem.mpr (fun o ho => ?_)
        obtain ⟨t, ht⟩ := Option.ne_none_iff_exists'.mp (hall o ho)
        have hmem : t ∈ tokensOf obs := mem_tokensOf.mpr ⟨o, ho, token?_eq_some.mp ht⟩
        rw [htokens] at hmem
        exact List.not_mem_nil hmem
    | cons first rest =>
        have hpresent {o : PassTokenObservation} (ho : o ∈ obs) :
            ∃ t ∈ first :: rest, o.result = .present t := by
          obtain ⟨t, ht⟩ := Option.ne_none_iff_exists'.mp (hall o ho)
          have hr := token?_eq_some.mp ht
          exact ⟨t, htokens ▸ mem_tokensOf.mpr ⟨o, ho, hr⟩, hr⟩
        have hobs {t : String} (ht : t ∈ first :: rest) : ∃ o ∈ obs, o.result = .present t :=
          mem_tokensOf.mp (htokens ▸ ht)
        by_cases hsame : rest.all (fun token => token = first) = true
        · refine .inl ⟨first, by simp only [if_pos hsame], ?_, fun o ho => ?_⟩
          · obtain ⟨o, ho, -⟩ := hobs List.mem_cons_self
            exact List.ne_nil_of_mem ho
          · obtain ⟨t, ht, hr⟩ := hpresent ho
            rcases List.mem_cons.mp ht with rfl | ht
            · exact hr
            · have heq : t = first := by simpa using (List.all_eq_true.mp hsame) t ht
              rw [hr, heq]
        · have hdiffer : ¬ ∃ t, Unanimous obs t := by
            rintro ⟨t, ht⟩
            have heq {s : String} (hs : s ∈ first :: rest) : s = t := by
              obtain ⟨o, ho, hr⟩ := hobs hs
              rw [ht o ho] at hr
              exact (PassTokenResult.present.inj hr).symm
            refine hsame (List.all_eq_true.mpr (fun s hs => ?_))
            rw [heq (List.mem_cons_of_mem first hs), heq List.mem_cons_self]
            exact decide_eq_true rfl
          refine .inr (.inl ⟨obs.map (·.pass), .mismatch, by simp only [if_neg hsame], hdiffer,
            fun key => ?_⟩)
          rw [List.mem_map]
          constructor
          · rintro ⟨o, ho, hkey⟩
            exact ⟨o, ho, hkey, .inr ⟨hall, hdiffer⟩⟩
          · rintro ⟨o, ho, hkey, -⟩
            exact ⟨o, ho, hkey⟩
  · -- some token is not there
    have hdiffer : ¬ ∃ t, Unanimous obs t := by
      rintro ⟨t, ht⟩
      exact hall (fun o ho => by rw [ht o ho]; exact Option.some_ne_none t)
    have hkeys (key : PassKey) : key ∈ passesWithoutTokens obs ↔
        ∃ o ∈ obs, o.pass = key ∧ Lacking obs o := by
      rw [mem_passesWithoutTokens]
      constructor
      · rintro ⟨o, ho, hnone, hkey⟩
        exact ⟨o, ho, hkey, .inl hnone⟩
      · rintro ⟨o, ho, hkey, hnone | ⟨hsome, -⟩⟩
        · exact ⟨o, ho, hnone, hkey⟩
        · exact absurd hsome hall
    refine .inr (.inl ?_)
    unfold classifyZoneTokenEvidence
    by_cases h₁ : hasResult obs .enumerationIncomplete = true
    · exact ⟨_, _, if_pos h₁, hdiffer, hkeys⟩
    rw [if_neg h₁]
    by_cases h₂ : hasResult obs .receiverDropped = true
    · exact ⟨_, _, if_pos h₂, hdiffer, hkeys⟩
    rw [if_neg h₂]
    by_cases h₃ : hasResult obs .blank = true
    · exact ⟨_, _, if_pos h₃, hdiffer, hkeys⟩
    rw [if_neg h₃]
    by_cases h₄ : hasResult obs .missing = true
    · exact ⟨_, _, if_pos h₄, hdiffer, hkeys⟩
    refine absurd (fun o ho hnone => ?_) hall
    rw [Bool.not_eq_true, hasResult_eq_false] at h₁ h₂ h₃ h₄
    rcases token?_eq_none.mp hnone with h | h | h | h
    · exact h₁ o ho h
    · exact h₂ o ho h
    · exact h₃ o ho h
    · exact h₄ o ho h

/-! ## the repair -/

/-- What a repair observes of a pass. -/
def recoveredResult (env : RunEnv) (index : Nat) : PassTokenResult :=
  match env.recoveryRun index with
  | none => .enumerationIncomplete
  | some run => passResult run.finished run.reply

theorem updateObservation_eq_map {index : Nat} (h : (obs.map (·.pass.index)).Nodup) :
    updateObservation index result obs =
      obs.map (fun o => if o.pass.index = index then { o with result := result } else o) := by
  induction obs with
  | nil => rfl
  | cons o rest ih =>
      rw [List.map_cons, List.nodup_cons] at h
      rw [updateObservation, List.map_cons]
      by_cases hi : o.pass.index = index
      · rw [if_pos hi, if_pos hi]
        have hrest : ∀ o' ∈ rest, (if o'.pass.index = index then { o' with result := result }
            else o') = id o' := by
          intro o' ho'
          refine if_neg (fun hi' => h.1 ?_)
          rw [hi, ← hi']
          exact List.mem_map_of_mem ho'
        rw [List.map_congr_left hrest, List.map_id]
      · rw [if_neg hi, if_neg hi, ih h.2]

/-- The observations after the passes `ks` were run again. -/
def repaired (env : RunEnv) (ks : List PassKey) (obs : List PassTokenObservation) :
    List PassTokenObservation :=
  obs.map (fun o =>
    if o.pass.index ∈ ks.map (·.index) then
      { o with result := recoveredResult env o.pass.index }
    else
      o)

theorem repaired_index (ks : List PassKey) (obs : List PassTokenObservation) :
    (repaired env ks obs).map (·.pass.index) = obs.map (·.pass.index) := by
  unfold repaired
  rw [List.map_map]
  refine List.map_congr_left (fun o _ => ?_)
  simp only [Function.comp_apply]
  split <;> rfl

theorem repaired_append (ks : List PassKey) (k : PassKey) (h : (obs.map (·.pass.index)).Nodup) :
    updateObservation k.index (recoveredResult env k.index) (repaired env ks obs) =
      repaired env (ks ++ [k]) obs := by
  rw [updateObservation_eq_map (by rwa [repaired_index])]
  unfold repaired
  rw [List.map_map]
  refine List.map_congr_left (fun o _ => ?_)
  simp only [Function.comp_apply, List.map_append, List.mem_append, List.map_cons, List.map_nil,
    List.mem_singleton]
  by_cases hk : o.pass.index = k.index
  · by_cases hin : o.pass.index ∈ ks.map (·.index)
    · rw [if_pos hin, if_pos hk, if_pos (.inl hin), hk]
    · rw [if_neg hin, if_pos hk, if_pos (.inr hk), hk]
  · by_cases hin : o.pass.index ∈ ks.map (·.index)
    · rw [if_pos hin, if_neg hk, if_pos (.inl hin)]
    · have hno : ¬ (o.pass.index ∈ ks.map (·.index) ∨ o.pass.index = k.index) :=
        fun h => h.elim hin hk
      rw [if_neg hin, if_neg hk, if_neg hno]

/-- The pass was run again and finished. -/
def Recovers (env : RunEnv) (k : PassKey) : Prop :=
  ∃ run, env.recoveryRun k.index = some run ∧ run.finished = true

/-- The runs that a repair of the passes `ks` makes. -/
def recoveryRuns (env : RunEnv) (ks : List PassKey) : List (Nat × PassRun) :=
  ks.filterMap (fun k => (env.recoveryRun k.index).map (fun run => (k.index, run)))

variable {ks : List PassKey}

theorem mem_recoveryRuns {i : Nat} {run : PassRun} :
    (i, run) ∈ recoveryRuns env ks ↔ i ∈ ks.map (·.index) ∧ env.recoveryRun i = some run := by
  unfold recoveryRuns
  rw [List.mem_filterMap, List.mem_map]
  constructor
  · rintro ⟨k, hk, h⟩
    obtain ⟨run', hrun, heq⟩ := Option.map_eq_some_iff.mp h
    cases heq
    exact ⟨⟨k, hk, rfl⟩, hrun⟩
  · rintro ⟨⟨k, hk, rfl⟩, hrun⟩
    exact ⟨k, hk, by rw [hrun, Option.map_some]⟩

/-- What the repair knows after the passes `ks`. -/
structure RecoverySpec (env : RunEnv) (round : Round) (ks : List PassKey)
    (s : Recovery) : Prop where
  observations : s.round.observations = repaired env ks round.observations
  completed : s.completedPasses = (ks.filter (fun k => (env.recoveryRun k.index).isSome)).length
  finished : s.enumerationComplete = true ∧ s.enumerationErrors = 0 ↔ ∀ k ∈ ks, Recovers env k
  streaming : finishedRound s.round = true ↔ finishedRound round = true ∧
    ∀ k ∈ ks, ∀ run, env.recoveryRun k.index = some run → run.finished = true
  truncated : s.round.boundsTruncated = true ↔ round.boundsTruncated = true ∨
    ∃ k ∈ ks, ∃ run, env.recoveryRun k.index = some run ∧ run.boundsTruncated = true
  runs : s.round.runs = round.runs ++ recoveryRuns env ks

theorem finished_eq_true {run : PassRun} :
    run.finished = true ↔ run.enumerationComplete = true ∧ run.enumerationErrors = 0 := by
  simp [PassRun.finished]

variable {round : Round}

theorem finishedRound_eq_true :
    finishedRound round = true ↔ round.streaming.enumerationComplete = true ∧
      round.streaming.enumerationErrors = 0 := by
  simp [finishedRound]

theorem recoverPasses_spec (hbuilt : env.recoveryConfigsBuilt = true)
    (hnodup : (round.observations.map (·.pass.index)).Nodup) (ks : List PassKey)
    (hks : ∀ k ∈ ks, k.index < passes.length) :
    RecoverySpec env round ks (ks.foldl (recoverPass passes env) ⟨true, 0, 0, round⟩) := by
  induction ks using List.reverseRecOn with
  | nil => refine ⟨?_, rfl, ?_, ?_, ?_, ?_⟩ <;> simp [repaired, recoveryRuns]
  | append_singleton ks k ih =>
      have hspec := ih (fun k' hk' => hks k' (List.mem_append_left _ hk'))
      have hk : k.index < passes.length := hks k (List.mem_append_right _ List.mem_cons_self)
      rw [List.foldl_append, List.foldl_cons, List.foldl_nil]
      generalize ks.foldl (recoverPass passes env) ⟨true, 0, 0, round⟩ = s at hspec
      unfold recoverPass
      rw [List.getElem?_eq_getElem hk]
      simp only [hbuilt, if_true]
      have hobs : updateObservation k.index (recoveredResult env k.index) s.round.observations =
          repaired env (ks ++ [k]) round.observations := by
        rw [hspec.observations]
        exact repaired_append ks k hnodup
      cases hrun : env.recoveryRun k.index with
      | none =>
          have hresult : recoveredResult env k.index = .enumerationIncomplete := by
            simp only [recoveredResult, hrun]
          rw [hresult] at hobs
          refine ⟨hobs, by simp [hspec.completed, hrun], ?_, ?_, ?_, ?_⟩
          · refine ⟨fun h => absurd h.1 Bool.false_ne_true, fun h => ?_⟩
            obtain ⟨run, hk', -⟩ := h k (List.mem_append_right _ List.mem_cons_self)
            rw [hrun] at hk'
            contradiction
          · have hlast : ∀ run, env.recoveryRun k.index = some run → run.finished = true := by
              simp [hrun]
            rw [List.forall_mem_append, List.forall_mem_singleton, ← and_assoc, ← hspec.streaming]
            exact (and_iff_left hlast).symm
          · simpa [List.mem_append, or_and_right, exists_or, hrun] using hspec.truncated
          · simp [hspec.runs, recoveryRuns, List.filterMap_append, hrun]
      | some run =>
          have hresult : recoveredResult env k.index = passResult run.finished run.reply := by
            simp only [recoveredResult, hrun]
          rw [hresult] at hobs
          refine ⟨hobs, by simp [hspec.completed, hrun], ?_, ?_, ?_, ?_⟩
          · have hlast : Recovers env k ↔ run.finished = true := by simp [Recovers, hrun]
            rw [List.forall_mem_append, List.forall_mem_singleton, ← hspec.finished, hlast,
              finished_eq_true, Bool.and_eq_true, Nat.add_eq_zero_iff]
            exact and_and_and_comm
          · have hlast : (∀ r, env.recoveryRun k.index = some r → r.finished = true) ↔
                run.finished = true := by simp [hrun]
            rw [List.forall_mem_append, List.forall_mem_singleton, ← and_assoc, ← hspec.streaming,
              hlast, finishedRound_eq_true, finishedRound_eq_true, finished_eq_true]
            simp only [mergeStreamingResult, Bool.and_eq_true, Nat.add_eq_zero_iff]
            exact and_and_and_comm
          · simp only [Bool.or_eq_true, hspec.truncated, List.mem_append, List.mem_singleton,
              or_and_right, exists_or, exists_eq_left, hrun, Option.some.injEq, exists_eq_left',
              or_assoc]
          · simp [hspec.runs, recoveryRuns, List.filterMap_append, hrun, List.append_assoc]

theorem recoverPass_unbuilt (hbuilt : env.recoveryConfigsBuilt = false) (state : Recovery)
    (k : PassKey) :
    recoverPass passes env state k = { state with enumerationComplete := false } := by
  unfold recoverPass
  simp only [hbuilt, Bool.false_eq_true, if_false]
  split <;> rfl

theorem recoverPasses_unbuilt (passes : List AlbumPass)
    (hbuilt : env.recoveryConfigsBuilt = false) (round : Round)
    (ks : List PassKey) :
    (ks.foldl (recoverPass passes env) ⟨true, 0, 0, round⟩).round = round ∧
      (ks ≠ [] → (ks.foldl (recoverPass passes env) ⟨true, 0, 0, round⟩).enumerationComplete =
        false) := by
  induction ks using List.reverseRecOn with
  | nil => exact ⟨rfl, fun h => absurd rfl h⟩
  | append_singleton ks k ih =>
      rw [List.foldl_append, List.foldl_cons, List.foldl_nil, recoverPass_unbuilt hbuilt]
      exact ⟨ih.1, fun _ => rfl⟩

theorem passResult_eq_present {complete : Bool} {reply : TokenReply} :
    passResult complete reply = .present t ↔ complete = true ∧ replyResult reply = .present t := by
  cases complete <;> simp [passResult]

theorem recoveredResult_eq_present {index : Nat} :
    recoveredResult env index = .present t ↔ ∃ run, env.recoveryRun index = some run ∧
      run.finished = true ∧ replyResult run.reply = .present t := by
  unfold recoveredResult
  cases env.recoveryRun index with
  | none => simp
  | some run => simp [passResult_eq_present]

/-! ## the evidence of a round -/

/-- The passes that a repair of the round runs again. -/
def Retried (round : Round) (o : PassTokenObservation) : Prop :=
  finishedRound round = false ∨ Lacking round.observations o

theorem not_retried (hfin : finishedRound round = true) (hu : Unanimous round.observations t)
    {o : PassTokenObservation} (ho : o ∈ round.observations) : ¬ Retried round o := by
  rintro (hno | hnone | ⟨-, hdiffer⟩)
  · rw [hfin] at hno
    contradiction
  · rw [hu o ho] at hnone
    contradiction
  · exact hdiffer ⟨t, hu⟩

/-- What a round decides, whatever the order of its observations. -/
theorem initialEvidence_cases (round : Round) :
    (round.boundsTruncated = true ∧ ∃ reason, initialEvidence round = .incomplete reason) ∨
    (round.boundsTruncated = false ∧
      ((finishedRound round = true ∧ ∃ t, initialEvidence round = .complete t ∧
          round.observations ≠ [] ∧ Unanimous round.observations t) ∨
        (∃ ks reason, initialEvidence round = .recoverable ks reason ∧
          (finishedRound round = true → ¬ ∃ t, Unanimous round.observations t) ∧
          ∀ key, key ∈ ks ↔ ∃ o ∈ round.observations, o.pass = key ∧ Retried round o) ∨
        (round.observations = [] ∧ ∃ reason, initialEvidence round = .incomplete reason))) := by
  unfold initialEvidence
  cases htrunc : round.boundsTruncated with
  | true => exact .inl ⟨rfl, _, rfl⟩
  | false =>
      refine .inr ⟨rfl, ?_⟩
      have hentire : repairEntireEnumeration round = !finishedRound round := by
        unfold repairEntireEnumeration finishedRound
        rw [htrunc, Bool.not_false, Bool.and_true, Bool.not_and]
        congr 1
        cases hz : round.streaming.enumerationErrors <;> simp
      cases hfin : finishedRound round with
      | false =>
          rw [hentire, hfin]
          refine .inr (.inl ⟨_, _, rfl, fun h => absurd h Bool.false_ne_true, fun key => ?_⟩)
          rw [List.mem_map]
          constructor
          · rintro ⟨o, ho, hkey⟩
            exact ⟨o, ho, hkey, .inl hfin⟩
          · rintro ⟨o, ho, hkey, -⟩
            exact ⟨o, ho, hkey⟩
      | true =>
          rw [hentire, hfin]
          have hretried (o : PassTokenObservation) :
              Retried round o ↔ Lacking round.observations o := by
            unfold Retried
            rw [hfin]
            simp
          rcases classifyZoneTokenEvidence_cases round.observations with
            ⟨t, hc, hne, hu⟩ | ⟨ks, reason, hc, hu, hks⟩ | ⟨reason, hc, hnil⟩
          · exact .inl ⟨rfl, t, hc, hne, hu⟩
          · refine .inr (.inl ⟨ks, reason, hc, fun _ => hu, fun key => ?_⟩)
            rw [hks]
            simp only [hretried]
          · exact .inr (.inr ⟨hnil, reason, hc⟩)

theorem recoveredDecision_eq_some :
    (recoveredDecision round).syncToken = some t ↔
      finishedRound round = true ∧ round.observations ≠ [] ∧ Unanimous round.observations t := by
  unfold recoveredDecision
  rcases classifyZoneTokenEvidence_cases round.observations with
    ⟨t', hc, hne, hu⟩ | ⟨ks, reason, hc, hu, -⟩ | ⟨reason, hc, hnil⟩
  · simp only [hc]
    cases hfin : finishedRound round with
    | false => simp
    | true =>
        simp only [if_true, Option.some.injEq, true_and]
        constructor
        · rintro rfl
          exact ⟨hne, hu⟩
        · rintro ⟨-, hu'⟩
          obtain ⟨o, ho⟩ := List.exists_mem_of_ne_nil _ hne
          have h := (hu o ho).symm.trans (hu' o ho)
          exact PassTokenResult.present.inj h
  · simp only [hc]
    refine ⟨fun h => by contradiction, fun h => absurd ⟨t, h.2.2⟩ hu⟩
  · simp only [hc]
    refine ⟨fun h => by contradiction, fun h => absurd hnil h.2.1⟩

theorem recoveredDecision_round (round : Round) : (recoveredDecision round).round = round := by
  unfold recoveredDecision
  repeat' split
  all_goals rfl

/-! ## the decision -/

theorem finishedRound_eq_not_repairEntire (h : round.boundsTruncated = false) :
    finishedRound round = !repairEntireEnumeration round := by
  unfold repairEntireEnumeration finishedRound
  rw [h, Bool.not_false, Bool.and_true, Bool.not_or, Bool.not_not]
  congr 1
  cases round.streaming.enumerationErrors <;> simp

/-- A repair that runs every pass it should gives the repaired observations, and its round
counts as finished when every pass recovered. -/
theorem recoverPasses_built (passes : List AlbumPass) (hbuilt : env.recoveryConfigsBuilt = true)
    (htrunc : round.boundsTruncated = false)
    (hnodup : (round.observations.map (·.pass.index)).Nodup)
    (hks : ∀ k ∈ ks, k.index < passes.length) :
    (recoverPasses passes env round ks).observations = repaired env ks round.observations ∧
    (recoverPasses passes env round ks).runs = round.runs ++
      recoveryRuns env ks ∧
    ((∀ k ∈ ks, Recovers env k) → finishedRound (recoverPasses passes env round ks) = true) := by
  have hspec := recoverPasses_spec hbuilt hnodup ks hks
  unfold recoverPasses
  generalize ks.foldl (recoverPass passes env) ⟨true, 0, 0, round⟩ = s at hspec ⊢
  cases hentire : repairEntireEnumeration round with
  | true =>
      refine ⟨hspec.observations, hspec.runs, fun hall => ?_⟩
      have hran : s.completedPasses = ks.length := by
        rw [hspec.completed, List.length_filter_eq_length_iff]
        intro k hk
        obtain ⟨run, hrun, -⟩ := hall k hk
        rw [hrun]
        rfl
      obtain ⟨hcomplete, herrors⟩ := hspec.finished.mpr hall
      rw [finishedRound_eq_true]
      simp [hran, hcomplete, herrors]
  | false =>
      refine ⟨hspec.observations, hspec.runs, fun hall => ?_⟩
      refine hspec.streaming.mpr ⟨?_, fun k hk run hrun => ?_⟩
      · rw [finishedRound_eq_not_repairEntire htrunc, hentire]
        rfl
      · obtain ⟨run', hrun', hfin⟩ := hall k hk
        rw [hrun] at hrun'
        cases hrun'
        exact hfin

/-- The repair of a round succeeds with the token `t`. -/
structure Repairs (env : RunEnv) (repairTokenGaps : Bool) (round : Round) (t : String) : Prop where
  allowed : repairTokenGaps = true
  built : env.recoveryConfigsBuilt = true
  needed : finishedRound round = true → ¬ ∃ t, Unanimous round.observations t
  retried : ∀ o ∈ round.observations, Retried round o →
    recoveredResult env o.pass.index = .present t
  kept : ∀ o ∈ round.observations, ¬ Retried round o → o.result = .present t

theorem mem_map_index (hnodup : (round.observations.map (·.pass.index)).Nodup)
    (hks : ∀ key, key ∈ ks ↔ ∃ o ∈ round.observations, o.pass = key ∧ Retried round o)
    {o : PassTokenObservation} (ho : o ∈ round.observations) :
    o.pass.index ∈ ks.map (·.index) ↔ Retried round o := by
  constructor
  · intro hmem
    obtain ⟨key, hkey, hindex⟩ := List.mem_map.mp hmem
    obtain ⟨o', ho', rfl, hretried⟩ := (hks key).mp hkey
    have heq : o' = o := List.inj_on_of_nodup_map hnodup ho' ho hindex
    exact heq ▸ hretried
  · intro hretried
    exact List.mem_map.mpr ⟨o.pass, (hks o.pass).mpr ⟨o, ho, rfl, hretried⟩, rfl⟩

theorem unanimous_repaired (hnodup : (round.observations.map (·.pass.index)).Nodup)
    (hks : ∀ key, key ∈ ks ↔ ∃ o ∈ round.observations, o.pass = key ∧ Retried round o) :
    Unanimous (repaired env ks round.observations) t ↔ ∀ o ∈ round.observations,
      (Retried round o → recoveredResult env o.pass.index = .present t) ∧
        (¬ Retried round o → o.result = .present t) := by
  unfold Unanimous repaired
  rw [List.forall_mem_map]
  refine forall_congr' (fun o => forall_congr' (fun ho => ?_))
  have hiff := mem_map_index hnodup hks ho
  by_cases hr : Retried round o
  · rw [if_pos (hiff.mpr hr)]
    exact ⟨fun h => ⟨fun _ => h, fun hno => absurd hr hno⟩, fun h => h.1 hr⟩
  · rw [if_neg (fun h => hr (hiff.mp h))]
    exact ⟨fun h => ⟨fun h' => absurd h' hr, fun _ => h⟩, fun h => h.2 hr⟩

theorem not_finished_unbuilt (hbuilt : env.recoveryConfigsBuilt = false)
    (htrunc : round.boundsTruncated = false)
    (hno : ¬ (finishedRound round = true ∧ Unanimous round.observations t))
    (hks : ∀ key, key ∈ ks ↔ ∃ o ∈ round.observations, o.pass = key ∧ Retried round o) :
    ¬ (finishedRound (recoverPasses passes env round ks) = true ∧
      (recoverPasses passes env round ks).observations ≠ [] ∧
      Unanimous (recoverPasses passes env round ks).observations t) := by
  obtain ⟨hround, hcomplete⟩ := recoverPasses_unbuilt passes hbuilt round ks
  have hfin := finishedRound_eq_not_repairEntire htrunc
  unfold recoverPasses
  generalize ks.foldl (recoverPass passes env) ⟨true, 0, 0, round⟩ = s at hround hcomplete ⊢
  cases hentire : repairEntireEnumeration round with
  | false =>
      simp only [Bool.false_eq_true, if_false]
      rw [hround]
      rw [hentire] at hfin
      exact fun h => hno ⟨hfin, h.2.2⟩
  | true =>
      simp only [if_true]
      rintro ⟨hf, hne, -⟩
      rw [hround] at hne
      obtain ⟨o, ho⟩ := List.exists_mem_of_ne_nil _ hne
      have hretried : Retried round o := by
        left
        rw [hfin, hentire]
        rfl
      have hmem : o.pass ∈ ks := (hks o.pass).mpr ⟨o, ho, rfl, hretried⟩
      rw [finishedRound_eq_true] at hf
      have hc := hf.1
      rw [hcomplete (List.ne_nil_of_mem hmem)] at hc
      exact absurd hc Bool.false_ne_true

/-- **When a token is returned**: the first round gave it, or its repair did. -/
theorem decideToken_eq_some {repairTokenGaps : Bool}
    (hnodup : (round.observations.map (·.pass.index)).Nodup)
    (hlt : ∀ o ∈ round.observations, o.pass.index < passes.length) :
    (decideToken passes env repairTokenGaps round).syncToken = some t ↔
      round.boundsTruncated = false ∧ round.observations ≠ [] ∧
        ((finishedRound round = true ∧ Unanimous round.observations t) ∨
          Repairs env repairTokenGaps round t) := by
  unfold decideToken
  rcases initialEvidence_cases round with ⟨htrunc, reason, hev⟩ | ⟨htrunc, hcases⟩
  · rw [hev, htrunc]
    simp
  rcases hcases with ⟨hfin, t', hev, hne, hu⟩ | ⟨ks, reason, hev, hneeded, hks⟩ |
    ⟨hnil, reason, hev⟩
  · rw [hev]
    simp only [Option.some.injEq]
    constructor
    · rintro rfl
      exact ⟨htrunc, hne, .inl ⟨hfin, hu⟩⟩
    · rintro ⟨-, -, ⟨-, hu'⟩ | hrepairs⟩
      · obtain ⟨o, ho⟩ := List.exists_mem_of_ne_nil _ hne
        exact PassTokenResult.present.inj ((hu o ho).symm.trans (hu' o ho))
      · exact absurd ⟨t', hu⟩ (hrepairs.needed hfin)
  · rw [hev]
    have hno : ¬ (finishedRound round = true ∧ Unanimous round.observations t) :=
      fun h => hneeded h.1 ⟨t, h.2⟩
    have hindex : ∀ k ∈ ks, k.index < passes.length := by
      intro k hk
      obtain ⟨o, ho, rfl, -⟩ := (hks k).mp hk
      exact hlt o ho
    cases hrepair : repairTokenGaps with
    | false =>
        refine ⟨fun h => by contradiction, ?_⟩
        rintro ⟨-, -, h | h⟩
        · exact absurd h hno
        · exact absurd h.allowed Bool.false_ne_true
    | true =>
        simp only [if_true]
        rw [recoveredDecision_eq_some]
        cases hbuilt : env.recoveryConfigsBuilt with
        | false =>
            refine ⟨fun h => absurd h (not_finished_unbuilt hbuilt htrunc hno hks), ?_⟩
            · rintro ⟨-, -, h | h⟩
              · exact absurd h hno
              · have hb := h.built
                rw [hbuilt] at hb
                exact absurd hb Bool.false_ne_true
        | true =>
            obtain ⟨hobs, -, hfinish⟩ := recoverPasses_built passes hbuilt htrunc
              hnodup hindex
            have hunanimous : Unanimous (repaired env ks round.observations) t ↔ _ :=
              unanimous_repaired hnodup hks
            have hempty : repaired env ks round.observations ≠ [] ↔ round.observations ≠ [] := by
              simp [repaired]
            rw [hobs, hunanimous, hempty]
            constructor
            · rintro ⟨-, hne, hall⟩
              exact ⟨htrunc, hne, .inr ⟨rfl, hbuilt, hneeded, fun o ho => (hall o ho).1,
                fun o ho => (hall o ho).2⟩⟩
            · rintro ⟨-, hne, h | h⟩
              · exact absurd h hno
              · refine ⟨hfinish (fun k hk => ?_), hne,
                  fun o ho => ⟨h.retried o ho, h.kept o ho⟩⟩
                obtain ⟨o, ho, rfl, hretried⟩ := (hks k).mp hk
                obtain ⟨run, hrun, hfin, -⟩ :=
                  recoveredResult_eq_present.mp (h.retried o ho hretried)
                exact ⟨run, hrun, hfin⟩
  · rw [hev, hnil]
    simp

/-- The runs behind a returned token: those of the round, then the ones of its repair. -/
theorem decideToken_runs {repairTokenGaps : Bool}
    (hnodup : (round.observations.map (·.pass.index)).Nodup)
    (hlt : ∀ o ∈ round.observations, o.pass.index < passes.length)
    (htoken : (decideToken passes env repairTokenGaps round).syncToken = some t) :
    ∃ ks : List PassKey,
      (decideToken passes env repairTokenGaps round).round.runs = round.runs ++
        recoveryRuns env ks ∧
      ∀ key, key ∈ ks ↔ ∃ o ∈ round.observations, o.pass = key ∧ Retried round o := by
  obtain ⟨htrunc, hne, hgiven⟩ := (decideToken_eq_some hnodup hlt).mp htoken
  unfold decideToken at htoken ⊢
  rcases initialEvidence_cases round with ⟨htrunc', -⟩ | ⟨-, hcases⟩
  · rw [htrunc] at htrunc'
    contradiction
  rcases hcases with ⟨hfin, t', hev, -, hu⟩ | ⟨ks, reason, hev, hneeded, hks⟩ | ⟨hnil, -⟩
  · rw [hev]
    refine ⟨[], (List.append_nil _).symm, fun key => ?_⟩
    constructor
    · intro hmem
      exact absurd hmem List.not_mem_nil
    · rintro ⟨o, ho, -, hretried⟩
      exact absurd hretried (not_retried hfin hu ho)
  · rcases hgiven with ⟨hfin, hu⟩ | hrepairs
    · exact absurd ⟨t, hu⟩ (hneeded hfin)
    · have hindex : ∀ k ∈ ks, k.index < passes.length := by
        intro k hk
        obtain ⟨o, ho, rfl, -⟩ := (hks k).mp hk
        exact hlt o ho
      have hruns := (recoverPasses_built passes hrepairs.built htrunc hnodup hindex).2.1
      rw [hev]
      simp only [hrepairs.allowed, if_true, recoveredDecision_round]
      exact ⟨ks, hruns, hks⟩
  · exact absurd hnil hne

end Kei.FullEnumeration
