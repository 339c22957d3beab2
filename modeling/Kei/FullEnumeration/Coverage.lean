import Kei.FullEnumeration.FirstRound

/-!
# Kei.FullEnumeration.Coverage

What a returned token says about the passes of the zone.

A first round that finishes vouches for every pass.  Its repair only looks at
the passes the round observed, and not at all at their date bounds: after a
round that had to leave the deferred unfiled pass out, and after a repair run
that a bound cut, the token can stand for a pass that was not enumerated.
-/

namespace Kei.FullEnumeration

open Str

variable {passes : List AlbumPass} {config : DownloadConfig} {controls : DownloadControls}
  {env : RunEnv} {round : Round}

/-! ## what the token should stand for -/

/-- The last run of a pass. -/
def lastRun (runs : List (Nat × PassRun)) (index : Nat) : Option PassRun :=
  ((runs.filter (fun r => r.1 = index)).getLast?).map (·.2)

/-- The run reached the end of its pass, without errors, and its token is `t`. -/
def PassRun.Covers (run : PassRun) (t : String) : Prop :=
  run.finished = true ∧ run.boundsTruncated = false ∧
    ∃ token, run.reply = .sent (some token) ∧ trim token = t

/-- Every pass of the list was enumerated in this call, and its last token is `t`. -/
def CoversPasses (passes : List AlbumPass) (result : SyncResult) (t : String) : Prop :=
  ∀ i < passes.length, ∃ run, lastRun result.runs i = some run ∧ run.Covers t

/-! ## a pass left behind -/

/-- The usable token of the first run. -/
def firstToken (passes : List AlbumPass) (config : DownloadConfig) (controls : DownloadControls)
    (env : RunEnv) (i : Nat) : Option String :=
  (firstRunOf passes config controls env i).bind (fun run => (replyResult run.reply).token?)

/-- The pass is run again: some pass did not finish, or this one has no token, or the
tokens differ. -/
def RunAgain (passes : List AlbumPass) (config : DownloadConfig) (controls : DownloadControls)
    (env : RunEnv) (i : Nat) : Prop :=
  Observed passes config controls env i ∧
    ((∃ j < passes.length, Finished (firstRunOf passes config controls env j) = false) ∨
      firstToken passes config controls env i = none ∨
      ((∀ j, Observed passes config controls env j →
          firstToken passes config controls env j ≠ none) ∧
        ¬ ∃ t, ∀ j, Observed passes config controls env j →
          firstToken passes config controls env j = some t))

/-- The runs agree on the token `t`: no first run was cut by a bound, what is run again
finishes with `t`, and the rest had it before. -/
structure Agrees (passes : List AlbumPass) (config : DownloadConfig) (controls : DownloadControls)
    (env : RunEnv) (repairTokenGaps : Bool) (t : String) : Prop where
  firstRuns : ∀ i, Observed passes config controls env i →
    ∃ run, firstRunOf passes config controls env i = some run ∧ run.boundsTruncated = false
  again : ∀ i, RunAgain passes config controls env i →
    repairTokenGaps = true ∧ env.recoveryConfigsBuilt = true ∧
      ∃ run, env.recoveryRun i = some run ∧ run.finished = true ∧
        replyResult run.reply = .present t
  kept : ∀ i, Observed passes config controls env i → ¬ RunAgain passes config controls env i →
    firstToken passes config controls env i = some t

/-- The repair of a call succeeds and yet leaves a pass behind: the deferred unfiled pass,
which the first round left out, or a pass whose new run was cut by its bound. -/
structure RepairHidesPass (passes : List AlbumPass) (config : DownloadConfig)
    (controls : DownloadControls) (env : RunEnv) (repairTokenGaps : Bool) : Prop where
  frontierBuilt : env.frontierBuilt = true
  outcomeBuilt : env.downloadOutcome.isSome = true
  attempted : tokenAttemptAllowed controls = true
  agrees : ∃ t, Agrees passes config controls env repairTokenGaps t
  hides : ∃ i, RunAgain passes config controls env i ∧
    (SkipsDeferred passes config controls env ∨
      ∃ run, env.recoveryRun i = some run ∧ run.boundsTruncated = true)

/-! ## the last run of a pass -/

variable {i : Nat} {run : PassRun}

theorem lastRun_append_of_mem {a b : List (Nat × PassRun)} (hrun : ∀ r ∈ b, r.1 = i → r.2 = run)
    (hmem : ∃ r ∈ b, r.1 = i) : lastRun (a ++ b) i = some run := by
  unfold lastRun
  rw [List.filter_append, List.getLast?_append]
  cases hlast : (b.filter (fun r => r.1 = i)).getLast? with
  | none =>
      obtain ⟨r, hr, hi⟩ := hmem
      have hr' : r ∈ b.filter (fun r => r.1 = i) := List.mem_filter.mpr ⟨hr, decide_eq_true hi⟩
      rw [List.getLast?_eq_none_iff.mp hlast] at hr'
      exact absurd hr' List.not_mem_nil
  | some r =>
      obtain ⟨hr, hi⟩ := List.mem_filter.mp (List.mem_of_getLast? hlast)
      simp only [Option.some_or, Option.map_some, hrun r hr (of_decide_eq_true hi)]

theorem lastRun_append_of_not_mem {a b : List (Nat × PassRun)} (hno : ∀ r ∈ b, r.1 ≠ i) :
    lastRun (a ++ b) i = lastRun a i := by
  have hempty : b.filter (fun r => r.1 = i) = [] := by
    rw [List.filter_eq_nil_iff]
    simpa using hno
  unfold lastRun
  rw [List.filter_append, hempty, List.append_nil]

theorem lastRun_of_mem {a : List (Nat × PassRun)} (hrun : ∀ r ∈ a, r.1 = i → r.2 = run)
    (hmem : ∃ r ∈ a, r.1 = i) : lastRun a i = some run := by
  have h := lastRun_append_of_mem (a := []) hrun hmem
  rwa [List.nil_append] at h

theorem lastRun_of_not_mem {a : List (Nat × PassRun)} (hno : ∀ r ∈ a, r.1 ≠ i) :
    lastRun a i = none := by
  have h := lastRun_append_of_not_mem (a := []) hno
  rwa [List.nil_append] at h

/-! ## what is run again -/

theorem finished_eq_false (hspec : RoundSpec passes config controls env round) (hne : passes ≠ []) :
    finishedRound round = false ↔
      ∃ j < passes.length, Finished (firstRunOf passes config controls env j) = false := by
  rw [← Bool.not_eq_true, hspec.finished hne]
  simp

/-- In a finished round, what is observed of a pass is the token of its first run. -/
theorem observed_token (hspec : RoundSpec passes config controls env round)
    (hfin : finishedRound round = true) {o : PassTokenObservation} (ho : o ∈ round.observations) :
    o.result.token? = firstToken passes config controls env o.pass.index := by
  have hobserved := (hspec.observed o.pass.index).mp (List.mem_map_of_mem ho)
  obtain ⟨run, hrun⟩ := Option.isSome_iff_exists.mp (hspec.ran _ hobserved)
  have hresult := hspec.results hfin o ho
  unfold firstToken
  rw [hresult, hrun]
  rfl

theorem forall_observed (hspec : RoundSpec passes config controls env round) {P : Nat → Prop} :
    (∀ i, Observed passes config controls env i → P i) ↔
      ∀ o ∈ round.observations, P o.pass.index := by
  constructor
  · intro h o ho
    exact h _ ((hspec.observed _).mp (List.mem_map_of_mem ho))
  · intro h i hi
    obtain ⟨o, ho, rfl⟩ := List.mem_map.mp ((hspec.observed i).mpr hi)
    exact h o ho

theorem retried_iff (hspec : RoundSpec passes config controls env round) (hne : passes ≠ [])
    {o : PassTokenObservation} (ho : o ∈ round.observations) :
    Retried round o ↔ RunAgain passes config controls env o.pass.index := by
  have hobserved := (hspec.observed o.pass.index).mp (List.mem_map_of_mem ho)
  unfold Retried RunAgain
  rw [← finished_eq_false hspec hne, and_iff_right hobserved]
  cases hfin : finishedRound round with
  | false => simp
  | true =>
      have htoken {o : PassTokenObservation} (ho : o ∈ round.observations) :=
        observed_token hspec hfin ho
      have hunanimous (t : String) : Unanimous round.observations t ↔
          ∀ j, Observed passes config controls env j →
            firstToken passes config controls env j = some t := by
        rw [forall_observed hspec]
        refine forall_congr' (fun o => forall_congr' (fun ho => ?_))
        rw [← htoken ho, token?_eq_some]
      have hall : (∀ o ∈ round.observations, o.result.token? ≠ none) ↔
          ∀ j, Observed passes config controls env j →
            firstToken passes config controls env j ≠ none := by
        rw [forall_observed hspec]
        refine forall_congr' (fun o => forall_congr' (fun ho => ?_))
        rw [htoken ho]
      unfold Lacking
      rw [htoken ho, hall]
      simp only [hunanimous]

/-! ## the token and the passes -/

variable {t : String}

theorem replyResult_eq_present {reply : TokenReply} (h : replyResult reply = .present t) :
    ∃ token, reply = .sent (some token) ∧ trim token = t := by
  match reply with
  | .dropped => contradiction
  | .sent none => contradiction
  | .sent (some token) =>
      rw [replyResult] at h
      split at h
      · contradiction
      · exact ⟨token, rfl, PassTokenResult.present.inj h⟩

theorem firstToken_eq_some :
    firstToken passes config controls env i = some t ↔
      ∃ run, firstRunOf passes config controls env i = some run ∧
        replyResult run.reply = .present t := by
  unfold firstToken
  simp only [Option.bind_eq_some_iff, token?_eq_some]

/-- The last run of an observed pass: of the repair if it was run again, else of the first
round. -/
theorem lastRun_observed (hspec : RoundSpec passes config controls env round) (hne : passes ≠ [])
    {ks : List PassKey}
    (hks : ∀ key, key ∈ ks ↔ ∃ o ∈ round.observations, o.pass = key ∧ Retried round o)
    (hi : Observed passes config controls env i)
    (hagain : RunAgain passes config controls env i → env.recoveryRun i = some run)
    (hfirst : ¬ RunAgain passes config controls env i →
      firstRunOf passes config controls env i = some run) :
    lastRun (round.runs ++ recoveryRuns env ks) i = some run := by
  obtain ⟨o, ho, rfl⟩ := List.mem_map.mp ((hspec.observed i).mpr hi)
  have hindex : o.pass.index ∈ ks.map (·.index) ↔
      RunAgain passes config controls env o.pass.index :=
    (mem_map_index hspec.nodup hks ho).trans (retried_iff hspec hne ho)
  by_cases hr : RunAgain passes config controls env o.pass.index
  · have hmem : (o.pass.index, run) ∈ recoveryRuns env ks :=
      mem_recoveryRuns.mpr ⟨hindex.mpr hr, hagain hr⟩
    refine lastRun_append_of_mem (fun r hr' heq => ?_) ⟨_, hmem, rfl⟩
    have hrun := (mem_recoveryRuns.mp (hr' : (r.1, r.2) ∈ _)).2
    rw [heq, hagain hr] at hrun
    exact (Option.some.inj hrun).symm
  · rw [lastRun_append_of_not_mem, hspec.runs]
    · refine lastRun_of_mem (fun r hmem heq => ?_) ⟨_, List.mem_map_of_mem ho, rfl⟩
      obtain ⟨o', -, rfl⟩ := List.mem_map.mp hmem
      simp only at heq ⊢
      rw [heq, hfirst hr]
      rfl
    · intro r hmem heq
      have hagain' := (mem_recoveryRuns.mp (hmem : (r.1, r.2) ∈ _)).1
      rw [heq] at hagain'
      exact hr (hindex.mp hagain')

theorem lastRun_left_out (hspec : RoundSpec passes config controls env round) {ks : List PassKey}
    (hks : ∀ key, key ∈ ks ↔ ∃ o ∈ round.observations, o.pass = key ∧ Retried round o)
    (hi : ¬ Observed passes config controls env i) :
    lastRun (round.runs ++ recoveryRuns env ks) i = none := by
  refine lastRun_of_not_mem (fun r hmem heq => hi ((hspec.observed i).mp ?_))
  rcases List.mem_append.mp hmem with hmem | hmem
  · rw [hspec.runs] at hmem
    obtain ⟨o, ho, rfl⟩ := List.mem_map.mp hmem
    exact heq ▸ List.mem_map_of_mem ho
  · obtain ⟨k, hk, hindex⟩ := List.mem_map.mp (mem_recoveryRuns.mp (hmem : (r.1, r.2) ∈ _)).1
    obtain ⟨o, ho, rfl, -⟩ := (hks k).mp hk
    exact (hindex.trans heq) ▸ List.mem_map_of_mem ho

variable {repair : Bool}

theorem download_eq_some {result : SyncResult} :
    (downloadPhotosFullWithTokenPolicy passes config controls env repair = some result ∧
        result.syncToken = some t) →
      env.frontierBuilt = true ∧ env.downloadOutcome.isSome = true ∧
        tokenAttemptAllowed controls = true ∧
        ∃ round, firstRound passes config controls env = some round ∧
          (decideToken passes env repair round).syncToken = some t ∧
          result.runs = (decideToken passes env repair round).round.runs := by
  rintro ⟨h, htoken⟩
  unfold downloadPhotosFullWithTokenPolicy at h
  cases hfrontier : env.frontierBuilt with
  | false =>
      rw [hfrontier] at h
      contradiction
  | true =>
      rw [hfrontier, if_pos rfl] at h
      obtain ⟨round, hround, h⟩ := Option.bind_eq_some_iff.mp h
      obtain ⟨outcome, houtcome, h⟩ := Option.bind_eq_some_iff.mp h
      cases h
      cases hallowed : tokenAttemptAllowed controls with
      | false =>
          simp [hallowed] at htoken
      | true =>
          simp only [hallowed, if_true] at htoken
          refine ⟨rfl, by rw [houtcome]; rfl, rfl, round, hround, htoken, ?_⟩
          simp only [if_true]

theorem download_of_decision (hfrontier : env.frontierBuilt = true)
    (houtcome : env.downloadOutcome.isSome = true) (hallowed : tokenAttemptAllowed controls = true)
    (hround : firstRound passes config controls env = some round)
    (htoken : (decideToken passes env repair round).syncToken = some t) :
    ∃ result, downloadPhotosFullWithTokenPolicy passes config controls env repair = some result ∧
      result.syncToken = some t ∧
      result.runs = (decideToken passes env repair round).round.runs := by
  obtain ⟨outcome, houtcome⟩ := Option.isSome_iff_exists.mp houtcome
  unfold downloadPhotosFullWithTokenPolicy
  rw [if_pos hfrontier, hround, houtcome]
  refine ⟨_, rfl, ?_, ?_⟩
  · simp only [hallowed, if_true, htoken]
  · simp only [hallowed, if_true]

theorem decideToken_iff_agrees (hspec : RoundSpec passes config controls env round) :
    (decideToken passes env repair round).syncToken = some t ↔
      round.observations ≠ [] ∧ Agrees passes config controls env repair t := by
  have hnonempty (h : round.observations ≠ []) : passes ≠ [] := by
    rintro rfl
    obtain ⟨o, ho⟩ := List.exists_mem_of_ne_nil _ h
    exact Nat.not_lt_zero _ (hspec.index_lt o ho)
  have htrunc : round.boundsTruncated = false ↔ ∀ i, Observed passes config controls env i →
      ∃ run, firstRunOf passes config controls env i = some run ∧ run.boundsTruncated = false := by
    rw [← Bool.not_eq_true, hspec.truncated]
    constructor
    · intro h i hi
      obtain ⟨run, hrun⟩ := Option.isSome_iff_exists.mp (hspec.ran i hi)
      refine ⟨run, hrun, Bool.eq_false_iff.mpr (fun ht => h ⟨i, hi, ?_⟩)⟩
      rw [hrun]
      exact ht
    · rintro h ⟨i, hi, ht⟩
      obtain ⟨run, hrun, hno⟩ := h i hi
      rw [hrun] at ht
      exact Bool.false_ne_true (hno.symm.trans ht)
  rw [decideToken_eq_some hspec.nodup hspec.index_lt]
  constructor
  · rintro ⟨hbounds, hne, hgiven⟩
    have hretried {o : PassTokenObservation} (ho : o ∈ round.observations) :=
      retried_iff hspec (hnonempty hne) ho
    have hcases : ∀ o ∈ round.observations,
        (Retried round o → repair = true ∧ env.recoveryConfigsBuilt = true ∧
          recoveredResult env o.pass.index = .present t) ∧
        (¬ Retried round o → o.result = .present t) := by
      intro o ho
      rcases hgiven with ⟨hfin, hu⟩ | hrepairs
      · exact ⟨fun h => absurd h (not_retried hfin hu ho), fun _ => hu o ho⟩
      · exact ⟨fun h => ⟨hrepairs.allowed, hrepairs.built, hrepairs.retried o ho h⟩,
          hrepairs.kept o ho⟩
    refine ⟨hne, htrunc.mp hbounds, fun i hi => ?_, fun i hi hno => ?_⟩
    · obtain ⟨o, ho, rfl⟩ := List.mem_map.mp ((hspec.observed i).mpr hi.1)
      obtain ⟨hrepair, hbuilt, hresult⟩ := (hcases o ho).1 ((hretried ho).mpr hi)
      exact ⟨hrepair, hbuilt, recoveredResult_eq_present.mp hresult⟩
    · obtain ⟨o, ho, rfl⟩ := List.mem_map.mp ((hspec.observed i).mpr hi)
      rw [← hretried ho] at hno
      have hfin : finishedRound round = true :=
        Bool.not_eq_false _ ▸ fun h => hno (.inl h)
      rw [← observed_token hspec hfin ho, token?_eq_some]
      exact (hcases o ho).2 hno
  · rintro ⟨hne, hagrees⟩
    have hretried {o : PassTokenObservation} (ho : o ∈ round.observations) :=
      retried_iff hspec (hnonempty hne) ho
    have hobserved {o : PassTokenObservation} (ho : o ∈ round.observations) :=
      (hspec.observed o.pass.index).mp (List.mem_map_of_mem ho)
    have hkept : ∀ o ∈ round.observations, ¬ Retried round o → o.result = .present t := by
      intro o ho hno
      have hfin : finishedRound round = true :=
        Bool.not_eq_false _ ▸ fun h => hno (.inl h)
      rw [← token?_eq_some, observed_token hspec hfin ho]
      rw [hretried ho] at hno
      exact hagrees.kept _ (hobserved ho) hno
    refine ⟨htrunc.mpr hagrees.firstRuns, hne, ?_⟩
    by_cases hsome : ∃ o ∈ round.observations, Retried round o
    · right
      obtain ⟨o, ho, hr⟩ := hsome
      obtain ⟨hrepair, hbuilt, -⟩ := hagrees.again _ ((hretried ho).mp hr)
      refine ⟨hrepair, hbuilt, ?_, fun o' ho' hr' => ?_, hkept⟩
      · rintro hfin ⟨t', hu⟩
        exact not_retried hfin hu ho hr
      · exact recoveredResult_eq_present.mpr (hagrees.again _ ((hretried ho').mp hr')).2.2
    · left
      have hnone : ∀ o ∈ round.observations, ¬ Retried round o := fun o ho h => hsome ⟨o, ho, h⟩
      refine ⟨?_, fun o ho => hkept o ho (hnone o ho)⟩
      obtain ⟨o, ho⟩ := List.exists_mem_of_ne_nil _ hne
      exact Bool.not_eq_false _ ▸ fun h => hnone o ho (.inl h)

theorem agrees_of_download {result : SyncResult}
    (hresult : downloadPhotosFullWithTokenPolicy passes config controls env repair = some result)
    (hsync : result.syncToken = some t) :
    env.frontierBuilt = true ∧ env.downloadOutcome.isSome = true ∧
      tokenAttemptAllowed controls = true ∧ Agrees passes config controls env repair t := by
  obtain ⟨hfrontier, houtcome, hallowed, round, hround, htoken, -⟩ :=
    download_eq_some ⟨hresult, hsync⟩
  have hspec := firstRound_spec hround
  exact ⟨hfrontier, houtcome, hallowed, ((decideToken_iff_agrees hspec).mp htoken).2⟩

/-- Runs that agree on a token make a first round, from which it is decided. -/
theorem decided_of_agrees (hi : Observed passes config controls env i)
    (hagrees : Agrees passes config controls env repair t) :
    ∃ round, firstRound passes config controls env = some round ∧
      (decideToken passes env repair round).syncToken = some t := by
  have hne : passes ≠ [] := by
    rintro rfl
    exact Nat.not_lt_zero _ hi.1
  obtain ⟨round, hround⟩ := firstRound_isSome hne (fun j hj => by
    obtain ⟨run, hrun, -⟩ := hagrees.firstRuns j hj
    rw [hrun]
    rfl)
  have hspec := firstRound_spec hround
  have hobs : round.observations ≠ [] := by
    obtain ⟨o, ho, -⟩ := List.mem_map.mp ((hspec.observed i).mpr hi)
    exact List.ne_nil_of_mem ho
  exact ⟨round, hround, (decideToken_iff_agrees hspec).mpr ⟨hobs, hagrees⟩⟩

theorem download_of_agrees (hfrontier : env.frontierBuilt = true)
    (houtcome : env.downloadOutcome.isSome = true) (hallowed : tokenAttemptAllowed controls = true)
    (hi : Observed passes config controls env i)
    (hagrees : Agrees passes config controls env repair t) :
    ∃ result, downloadPhotosFullWithTokenPolicy passes config controls env repair = some result ∧
      result.syncToken = some t := by
  obtain ⟨round, hround, htoken⟩ := decided_of_agrees hi hagrees
  obtain ⟨result, hresult, hsync, -⟩ :=
    download_of_decision hfrontier houtcome hallowed hround htoken
  exact ⟨result, hresult, hsync⟩

/-- With no album left unfinished every pass takes part in the first round. -/
theorem observed_of_not_skips (hskip : ¬ SkipsDeferred passes config controls env)
    (hi : i < passes.length) : Observed passes config controls env i := ⟨hi, fun _ => hskip⟩

theorem not_skips_of_none_again (hi : Observed passes config controls env i)
    (hno : ¬ RunAgain passes config controls env i) :
    ¬ SkipsDeferred passes config controls env := by
  rintro ⟨hper, -, j, pass, hpass, -, hunfinished⟩
  refine hno ⟨hi, .inl ⟨j, (List.getElem?_eq_some_iff.mp hpass).1, ?_⟩⟩
  unfold firstRunOf
  rw [if_pos hper]
  exact hunfinished

/-- The runs that give the token cover the passes that they hide nothing of. -/
theorem covers_observed (hagrees : Agrees passes config controls env repair t)
    (hi : Observed passes config controls env i) (hbounds : RunAgain passes config controls env i →
      ∀ run, env.recoveryRun i = some run → run.boundsTruncated = false) :
    ∃ run : PassRun, run.Covers t ∧
      (RunAgain passes config controls env i → env.recoveryRun i = some run) ∧
      (¬ RunAgain passes config controls env i →
        firstRunOf passes config controls env i = some run) := by
  by_cases hr : RunAgain passes config controls env i
  · obtain ⟨-, -, run, hrun, hfin, hreply⟩ := hagrees.again i hr
    exact ⟨run, ⟨hfin, hbounds hr run hrun, replyResult_eq_present hreply⟩, fun _ => hrun,
      fun hno => absurd hr hno⟩
  · obtain ⟨run, hrun, hreply⟩ := firstToken_eq_some.mp (hagrees.kept i hi hr)
    obtain ⟨run', hrun', htrunc⟩ := hagrees.firstRuns i hi
    have heq : run' = run := Option.some.inj (hrun'.symm.trans hrun)
    have hfin : run.finished = true := by
      by_contra hno
      refine hr ⟨hi, .inl ⟨i, hi.1, ?_⟩⟩
      rw [hrun]
      exact Bool.eq_false_iff.mpr hno
    exact ⟨run, ⟨hfin, heq ▸ htrunc, replyResult_eq_present hreply⟩, fun h => absurd h hr,
      fun _ => hrun⟩

/-- **A token covers every pass** of the list, unless a repair hides one. -/
theorem token_covers_iff (passes : List AlbumPass) (config : DownloadConfig)
    (controls : DownloadControls) (env : RunEnv) (repairTokenGaps : Bool) :
    (∀ result t,
      downloadPhotosFullWithTokenPolicy passes config controls env repairTokenGaps = some result →
      result.syncToken = some t → CoversPasses passes result t) ↔
    ¬ RepairHidesPass passes config controls env repairTokenGaps := by
  constructor
  · rintro hcovers ⟨hfrontier, houtcome, hallowed, ⟨t, hagrees⟩, i, hi, hhides⟩
    obtain ⟨round, hround, htoken⟩ := decided_of_agrees hi.1 hagrees
    have hspec := firstRound_spec hround
    obtain ⟨result, hresult, hsync, hruns⟩ :=
      download_of_decision hfrontier houtcome hallowed hround htoken
    obtain ⟨ks, hdecided, hks⟩ := decideToken_runs hspec.nodup hspec.index_lt htoken
    rw [hdecided] at hruns
    have hall := hcovers result t hresult hsync
    unfold CoversPasses at hall
    rw [hruns] at hall
    rcases hhides with hskip | ⟨run, hrun, htrunc⟩
    · -- the deferred pass has no run at all
      obtain ⟨index, hd⟩ := Option.isSome_iff_exists.mp hskip.2.1
      obtain ⟨pass, hpass, -⟩ := deferredUnfiledIndex_eq_some hd
      obtain ⟨run, hlast, -⟩ := hall index (List.getElem?_eq_some_iff.mp hpass).1
      rw [lastRun_left_out hspec hks (fun hobserved => hobserved.2 hd hskip)] at hlast
      contradiction
    · -- the new run of the pass was cut
      obtain ⟨run', hlast, hcovered⟩ := hall i hi.1.1
      have hne : passes ≠ [] := List.ne_nil_of_length_pos (Nat.zero_lt_of_lt hi.1.1)
      rw [lastRun_observed hspec hne hks hi.1 (fun _ => hrun) (fun hno => absurd hi hno)] at hlast
      cases hlast
      rw [hcovered.2.1] at htrunc
      contradiction
  · intro hno result t hresult hsync
    obtain ⟨hfrontier, houtcome, hallowed, round, hround, htoken, hruns⟩ :=
      download_eq_some ⟨hresult, hsync⟩
    have hspec := firstRound_spec hround
    obtain ⟨hobs, hagrees⟩ := (decideToken_iff_agrees hspec).mp htoken
    have hhides (i : Nat) (hi : RunAgain passes config controls env i) :
        ¬ SkipsDeferred passes config controls env ∧
          ∀ run, env.recoveryRun i = some run → run.boundsTruncated = false := by
      have h := fun hh => hno ⟨hfrontier, houtcome, hallowed, ⟨t, hagrees⟩, i, hi, hh⟩
      refine ⟨fun hskip => h (.inl hskip), fun run hrun => Bool.eq_false_iff.mpr (fun ht => ?_)⟩
      exact h (.inr ⟨run, hrun, ht⟩)
    obtain ⟨o, ho⟩ := List.exists_mem_of_ne_nil _ hobs
    have hobserved := (hspec.observed _).mp (List.mem_map_of_mem ho)
    have hskip : ¬ SkipsDeferred passes config controls env := by
      by_cases hr : RunAgain passes config controls env o.pass.index
      · exact (hhides _ hr).1
      · exact not_skips_of_none_again hobserved hr
    have hne : passes ≠ [] := List.ne_nil_of_length_pos (Nat.zero_lt_of_lt (hspec.index_lt o ho))
    obtain ⟨ks, hdecided, hks⟩ := decideToken_runs hspec.nodup hspec.index_lt htoken
    intro i hi
    have hi := observed_of_not_skips hskip hi
    obtain ⟨run, hcovered, hagain, hfirst⟩ :=
      covers_observed hagrees hi (fun hr => (hhides i hr).2)
    refine ⟨run, ?_, hcovered⟩
    rw [hruns, hdecided]
    exact lastRun_observed hspec hne hks hi hagain hfirst

/-- An album, and the unfiled pass that waits for it. -/
def albumAndUnfiled : List AlbumPass :=
  [⟨.album, "Trips", some "trips", []⟩, ⟨.unfiled, "", none, []⟩]

/-- The first run of the album breaks off; its repair goes through. -/
def albumRepaired : RunEnv where
  frontierBuilt := true
  firstRun _ := some ⟨false, 1, false, .sent none⟩
  completion passes := passes
  completion_perm _ := List.Perm.refl _
  mergedRun := none
  mergedTruncated _ := false
  mergedReply _ := .dropped
  recoveryConfigsBuilt := true
  recoveryRun _ := some ⟨true, 0, false, .sent (some "zone-1")⟩
  countProbeFailures := 0
  downloadOutcome := some none

/-- A token is returned although the unfiled pass was not enumerated. -/
theorem token_hides_unfiled :
    ¬ ∀ (passes : List AlbumPass) (config : DownloadConfig) (controls : DownloadControls)
      (env : RunEnv) (repairTokenGaps : Bool) (result : SyncResult) (t : String),
      downloadPhotosFullWithTokenPolicy passes config controls env repairTokenGaps = some result →
      result.syncToken = some t → CoversPasses passes result t := by
  intro h
  have hrun : (downloadPhotosFullWithTokenPolicy albumAndUnfiled ⟨true, true, none, false⟩
      ⟨false, false⟩ albumRepaired true).map (fun r => (r.syncToken, lastRun r.runs 1)) =
      some (some "zone-1", none) := by decide +kernel
  obtain ⟨result, hresult, heq⟩ := Option.map_eq_some_iff.mp hrun
  obtain ⟨htoken, hlast⟩ := Prod.ext_iff.mp heq
  obtain ⟨run, hcovered, -⟩ := h _ _ _ _ _ result _ hresult htoken 1 (by decide)
  have hnone : lastRun result.runs 1 = none := hlast
  rw [hnone] at hcovered
  contradiction

end Kei.FullEnumeration
