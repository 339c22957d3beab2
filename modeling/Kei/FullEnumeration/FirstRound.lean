import Kei.FullEnumeration.Evidence

/-!
# Kei.FullEnumeration.FirstRound

Which passes the first round observes, and what it is in terms of their runs.
-/

namespace Kei.FullEnumeration

variable {passes : List AlbumPass} {config : DownloadConfig} {controls : DownloadControls}
  {env : RunEnv}

/-! ## the runs that go into a call -/

/-- The first run of a pass, on its own or as part of the merged one. -/
def firstRunOf (passes : List AlbumPass) (config : DownloadConfig) (controls : DownloadControls)
    (env : RunEnv) (index : Nat) : Option PassRun :=
  if needsPerPass passes config controls then
    env.firstRun index
  else
    env.mergedRun.map (fun r => ⟨r.enumerationComplete, r.enumerationErrors,
      env.mergedTruncated index, env.mergedReply index⟩)

/-- The run was made and finished. -/
def Finished (run : Option PassRun) : Bool := run.any (·.finished)

/-- The deferred unfiled pass is left out of the first round: an album pass, whose assets
it must leave out, did not finish. -/
def SkipsDeferred (passes : List AlbumPass) (config : DownloadConfig)
    (controls : DownloadControls) (env : RunEnv) : Prop :=
  needsPerPass passes config controls = true ∧ (deferredUnfiledIndex passes).isSome = true ∧
    ∃ i pass, passes[i]? = some pass ∧ pass.kind = .album ∧ Finished (env.firstRun i) = false

/-- The pass takes part in the first round. -/
def Observed (passes : List AlbumPass) (config : DownloadConfig) (controls : DownloadControls)
    (env : RunEnv) (i : Nat) : Prop :=
  i < passes.length ∧
    (deferredUnfiledIndex passes = some i → ¬ SkipsDeferred passes config controls env)

/-! ## the first round -/

/-- The run of a pass, where there is one. -/
def runOr (run : Option PassRun) : PassRun := run.getD ⟨false, 0, false, .dropped⟩

variable {entries : List (AlbumPass × Nat)}

theorem runPasses_eq_some {round round' : Round} :
    runPasses env entries round = some round' ↔
      (∀ e ∈ entries, (env.firstRun e.2).isSome = true) ∧
        round' = entries.foldl (fun r e => r.add e (runOr (env.firstRun e.2))) round := by
  induction entries generalizing round with
  | nil =>
      constructor
      · intro h
        exact ⟨fun e he => absurd he List.not_mem_nil, (Option.some.inj h).symm⟩
      · rintro ⟨-, rfl⟩
        rfl
  | cons e rest ih =>
      rw [runPasses, List.forall_mem_cons, List.foldl_cons]
      cases hrun : env.firstRun e.2 with
      | none => simp
      | some run =>
          simp only [Option.bind_eq_bind, Option.bind_some, Option.isSome_some, true_and]
          exact ih

theorem foldl_add (run : Nat → PassRun) (entries : List (AlbumPass × Nat)) (round : Round) :
    let round' := entries.foldl (fun r e => r.add e (run e.2)) round
    round'.observations = round.observations ++ entries.map (fun e => observe e (run e.2)) ∧
    round'.runs = round.runs ++ entries.map (fun e => (e.2, run e.2)) ∧
    (round'.boundsTruncated = true ↔ round.boundsTruncated = true ∨
      ∃ e ∈ entries, (run e.2).boundsTruncated = true) ∧
    (finishedRound round' = true ↔ finishedRound round = true ∧
      ∀ e ∈ entries, (run e.2).finished = true) := by
  induction entries generalizing round with
  | nil => simp
  | cons e rest ih =>
      obtain ⟨hobs, hruns, htrunc, hfin⟩ := ih (round.add e (run e.2))
      refine ⟨?_, ?_, ?_, ?_⟩
      · rw [List.foldl_cons, hobs]
        simp [Round.add]
      · rw [List.foldl_cons, hruns]
        simp [Round.add]
      · rw [List.foldl_cons, htrunc]
        simp [Round.add, or_assoc]
      · have hstep : finishedRound (round.add e (run e.2)) = true ↔
            finishedRound round = true ∧ (run e.2).finished = true := by
          rw [finishedRound_eq_true, finishedRound_eq_true, finished_eq_true]
          simp only [Round.add, mergeStreamingResult, Bool.and_eq_true, Nat.add_eq_zero_iff]
          exact and_and_and_comm
        rw [List.foldl_cons, hfin, hstep, List.forall_mem_cons, and_assoc]

/-- What the first round is, in terms of the runs that go into it. -/
structure RoundSpec (passes : List AlbumPass) (config : DownloadConfig)
    (controls : DownloadControls) (env : RunEnv) (round : Round) : Prop where
  nodup : (round.observations.map (·.pass.index)).Nodup
  observed : ∀ i, i ∈ round.observations.map (·.pass.index) ↔ Observed passes config controls env i
  ran : ∀ i, Observed passes config controls env i →
    (firstRunOf passes config controls env i).isSome = true
  runs : round.runs = round.observations.map (fun o =>
    (o.pass.index, runOr (firstRunOf passes config controls env o.pass.index)))
  truncated : round.boundsTruncated = true ↔ ∃ i, Observed passes config controls env i ∧
    (runOr (firstRunOf passes config controls env i)).boundsTruncated = true
  finished : passes ≠ [] → (finishedRound round = true ↔
    ∀ i < passes.length, Finished (firstRunOf passes config controls env i) = true)
  results : finishedRound round = true → ∀ o ∈ round.observations, o.result =
    replyResult (runOr (firstRunOf passes config controls env o.pass.index)).reply

variable {round : Round}

theorem RoundSpec.index_lt (h : RoundSpec passes config controls env round) :
    ∀ o ∈ round.observations, o.pass.index < passes.length :=
  fun _ ho => ((h.observed _).mp (List.mem_map_of_mem ho)).1

theorem nodup_concurrentPasses : ((concurrentPasses passes).map (·.2)).Nodup := by
  have hrange : (passes.zipIdx.map (·.2)).Nodup := by
    rw [List.zipIdx_map_snd]
    exact List.nodup_range'
  exact hrange.sublist (List.filter_sublist.map _)

theorem perPass_spec (hper : needsPerPass passes config controls = true)
    (hentries : ∀ e, e ∈ entries ↔ passes[e.2]? = some e.1 ∧
      Observed passes config controls env e.2) (hnodup : (entries.map (·.2)).Nodup)
    (hran : ∀ e ∈ entries, (env.firstRun e.2).isSome = true)
    (hobs : round.observations = entries.map (fun e => observe e (runOr (env.firstRun e.2))))
    (hruns : round.runs = entries.map (fun e => (e.2, runOr (env.firstRun e.2))))
    (htrunc : round.boundsTruncated = true ↔
      ∃ e ∈ entries, (runOr (env.firstRun e.2)).boundsTruncated = true)
    (hfin : passes ≠ [] → (finishedRound round = true ↔
      ¬ SkipsDeferred passes config controls env ∧
        ∀ e ∈ entries, (runOr (env.firstRun e.2)).finished = true)) :
    RoundSpec passes config controls env round := by
  have hfirst (i : Nat) : firstRunOf passes config controls env i = env.firstRun i := if_pos hper
  have hindex : round.observations.map (·.pass.index) = entries.map (·.2) := by
    rw [hobs, List.map_map]
    rfl
  have hmem (i : Nat) : i ∈ entries.map (·.2) ↔ Observed passes config controls env i := by
    rw [List.mem_map]
    constructor
    · rintro ⟨e, he, rfl⟩
      exact ((hentries e).mp he).2
    · intro hi
      have hlt : i < passes.length := hi.1
      exact ⟨(passes[i], i), (hentries _).mpr ⟨List.getElem?_eq_getElem hlt, hi⟩, rfl⟩
  have hsome (i : Nat) (hi : Observed passes config controls env i) :
      (env.firstRun i).isSome = true := by
    obtain ⟨e, he, rfl⟩ := List.mem_map.mp ((hmem i).mpr hi)
    exact hran e he
  have hrunOr (i : Nat) (hi : Observed passes config controls env i) :
      (runOr (env.firstRun i)).finished = Finished (env.firstRun i) := by
    obtain ⟨run, hrun⟩ := Option.isSome_iff_exists.mp (hsome i hi)
    rw [hrun]
    rfl
  have hfinished (hne : passes ≠ []) : finishedRound round = true ↔
      ∀ i < passes.length, Finished (firstRunOf passes config controls env i) = true := by
    rw [hfin hne]
    constructor
    · rintro ⟨hskip, hall⟩ i hi
      have hobserved : Observed passes config controls env i := ⟨hi, fun _ => hskip⟩
      obtain ⟨e, he, rfl⟩ := List.mem_map.mp ((hmem i).mpr hobserved)
      rw [hfirst, ← hrunOr e.2 hobserved]
      exact hall e he
    · intro hall
      refine ⟨?_, fun e he => ?_⟩
      · rintro ⟨-, -, i, pass, hpass, -, hno⟩
        have hi := hall i (List.getElem?_eq_some_iff.mp hpass).1
        rw [hfirst, hno] at hi
        exact absurd hi Bool.false_ne_true
      · have hobserved := ((hentries e).mp he).2
        rw [hrunOr e.2 hobserved, ← hfirst]
        exact hall e.2 hobserved.1
  refine ⟨?_, ?_, ?_, ?_, ?_, hfinished, ?_⟩
  · rw [hindex]
    exact hnodup
  · rw [hindex]
    exact hmem
  · intro i hi
    rw [hfirst]
    exact hsome i hi
  · rw [hruns, hobs, List.map_map]
    refine List.map_congr_left (fun e _ => ?_)
    simp only [Function.comp_apply, observe, keyOf, hfirst]
  · rw [htrunc]
    constructor
    · rintro ⟨e, he, ht⟩
      refine ⟨e.2, ((hentries e).mp he).2, ?_⟩
      rwa [hfirst]
    · rintro ⟨i, hi, ht⟩
      obtain ⟨e, he, rfl⟩ := List.mem_map.mp ((hmem i).mpr hi)
      rw [hfirst] at ht
      exact ⟨e, he, ht⟩
  · intro hf o ho
    rw [hobs] at ho
    obtain ⟨e, he, rfl⟩ := List.mem_map.mp ho
    have hne : passes ≠ [] := by
      rintro rfl
      exact absurd ((hentries e).mp he).1 (by simp)
    simp only [observe, keyOf, hfirst]
    rw [((hfin hne).mp hf).2 e he]
    rfl

theorem deferredExclusionsComplete_eq_true :
    deferredExclusionsComplete env entries = true ↔
      ∀ e ∈ entries, e.1.kind = .album → Finished (env.firstRun e.2) = true := by
  unfold deferredExclusionsComplete Finished
  rw [List.all_eq_true]
  refine forall_congr' (fun e => forall_congr' (fun _ => ?_))
  by_cases hk : e.1.kind = .album <;> simp [hk]

theorem skipsDeferred_iff (hper : needsPerPass passes config controls = true) {index : Nat}
    (hd : deferredUnfiledIndex passes = some index)
    (hentries : ∀ e, e ∈ entries ↔ e ∈ concurrentPasses passes) :
    SkipsDeferred passes config controls env ↔ deferredExclusionsComplete env entries = false := by
  rw [← Bool.not_eq_true, deferredExclusionsComplete_eq_true]
  constructor
  · rintro ⟨-, -, i, pass, hpass, hkind, hno⟩ hall
    obtain ⟨unfiled, hunfiled, hu⟩ := deferredUnfiledIndex_eq_some hd
    have hne : deferredUnfiledIndex passes ≠ some i := by
      intro hi
      rw [hd] at hi
      cases hi
      rw [hpass] at hunfiled
      cases hunfiled
      rw [hkind] at hu
      contradiction
    have h := hall (pass, i) ((hentries _).mpr (mem_concurrentPasses.mpr ⟨hpass, hne⟩)) hkind
    rw [hno] at h
    exact absurd h Bool.false_ne_true
  · intro hnot
    by_contra hskip
    refine hnot (fun e he hkind => ?_)
    by_contra hno
    refine hskip ⟨hper, by rw [hd]; rfl, e.2, e.1, ?_, hkind, Bool.eq_false_iff.mpr hno⟩
    exact (mem_concurrentPasses.mp ((hentries e).mp he)).1

/-- The round that per-pass runs start from. -/
def emptyRound (passes : List AlbumPass) : Round := ⟨⟨!passes.isEmpty, 0⟩, [], false, []⟩

theorem finished_emptyRound (h : passes ≠ []) : finishedRound (emptyRound passes) = true := by
  rw [finishedRound_eq_true]
  simp [emptyRound, h]

theorem runPasses_spec (hper : needsPerPass passes config controls = true)
    (hentries : ∀ e, e ∈ entries ↔ passes[e.2]? = some e.1 ∧
      Observed passes config controls env e.2) (hnodup : (entries.map (·.2)).Nodup)
    (hskip : ¬ SkipsDeferred passes config controls env)
    (hrun : runPasses env entries (emptyRound passes) = some round) :
    RoundSpec passes config controls env round := by
  obtain ⟨hran, rfl⟩ := runPasses_eq_some.mp hrun
  obtain ⟨hobs, hruns, htrunc, hfin⟩ :=
    foldl_add (fun i => runOr (env.firstRun i)) entries (emptyRound passes)
  refine perPass_spec hper hentries hnodup hran hobs hruns ?_ (fun hne => ?_)
  · rw [htrunc]
    simp [emptyRound]
  · rw [hfin, finished_emptyRound hne]
    simp [hskip]

theorem runPasses_append {es es' : List (AlbumPass × Nat)} :
    runPasses env (es ++ es') round = (runPasses env es round).bind (runPasses env es') := by
  induction es generalizing round with
  | nil => rfl
  | cons e rest ih =>
      rw [List.cons_append, runPasses, runPasses]
      cases env.firstRun e.2 with
      | none => rfl
      | some run => exact ih

/-- **The first round** observes the passes it should, in terms of their runs. -/
theorem firstRound_spec (h : firstRound passes config controls env = some round) :
    RoundSpec passes config controls env round := by
  unfold firstRound at h
  by_cases hper : needsPerPass passes config controls = true
  · rw [if_pos hper] at h
    unfold perPassRound at h
    have hperm := env.completion_perm (concurrentPasses passes)
    have hmem (e : AlbumPass × Nat) : e ∈ env.completion (concurrentPasses passes) ↔
        e ∈ concurrentPasses passes := hperm.mem_iff
    have hnodup : ((env.completion (concurrentPasses passes)).map (·.2)).Nodup :=
      (hperm.map _).nodup_iff.mpr nodup_concurrentPasses
    generalize env.completion (concurrentPasses passes) = entries at h hmem hnodup
    obtain ⟨first, hfirst, h⟩ := Option.bind_eq_some_iff.mp h
    cases hd : deferredUnfiledIndex passes with
    | none =>
        rw [hd] at h
        cases h
        have hskip : ¬ SkipsDeferred passes config controls env := by
          rintro ⟨-, hsome, -⟩
          rw [hd] at hsome
          exact absurd hsome Bool.false_ne_true
        refine runPasses_spec hper (fun e => ?_) hnodup hskip hfirst
        rw [hmem, mem_concurrentPasses, hd]
        constructor
        · rintro ⟨hget, -⟩
          exact ⟨hget, (List.getElem?_eq_some_iff.mp hget).1, fun _ => hskip⟩
        · rintro ⟨hget, -⟩
          exact ⟨hget, fun hnone => by contradiction⟩
    | some index =>
        rw [hd] at h
        have hiff : SkipsDeferred passes config controls env ↔ _ := skipsDeferred_iff hper hd hmem
        cases hex : deferredExclusionsComplete env entries with
        | true =>
            have hskip : ¬ SkipsDeferred passes config controls env := by
              rw [hiff, hex]
              exact Bool.noConfusion
            obtain ⟨pass, hpass, -⟩ := deferredUnfiledIndex_eq_some hd
            simp only [hex, if_true, hpass] at h
            have hrun : runPasses env (entries ++ [(pass, index)]) (emptyRound passes) =
                some round := by
              rw [runPasses_append]
              exact Option.bind_eq_some_iff.mpr ⟨first, hfirst, h⟩
            refine runPasses_spec hper (fun e => ?_) ?_ hskip hrun
            · rw [List.mem_append, hmem, mem_concurrentPasses, hd, List.mem_singleton]
              constructor
              · rintro (⟨hget, -⟩ | rfl)
                · exact ⟨hget, (List.getElem?_eq_some_iff.mp hget).1, fun _ => hskip⟩
                · exact ⟨hpass, (List.getElem?_eq_some_iff.mp hpass).1, fun _ => hskip⟩
              · rintro ⟨hget, -⟩
                by_cases hi : index = e.2
                · refine .inr (Prod.ext ?_ hi.symm)
                  rw [← hi, hpass] at hget
                  exact (Option.some.inj hget).symm
                · exact .inl ⟨hget, fun hs => hi (Option.some.inj hs)⟩
            · rw [List.map_append, List.nodup_append]
              refine ⟨hnodup, by simp, fun i hi j hj => ?_⟩
              obtain ⟨e, he, rfl⟩ := List.mem_map.mp hi
              rw [List.map_singleton, List.mem_singleton] at hj
              subst hj
              have hne := (mem_concurrentPasses.mp ((hmem e).mp he)).2
              rw [hd] at hne
              exact fun heq => hne (by rw [heq])
        | false =>
            have hskip : SkipsDeferred passes config controls env := hiff.mpr hex
            simp only [hex, Bool.false_eq_true, if_false] at h
            cases h
            obtain ⟨hran, rfl⟩ := runPasses_eq_some.mp hfirst
            obtain ⟨hobs, hruns, htrunc, -⟩ :=
              foldl_add (fun i => runOr (env.firstRun i)) entries (emptyRound passes)
            refine perPass_spec hper (fun e => ?_) hnodup hran hobs hruns ?_ (fun _ => ?_)
            · rw [hmem, mem_concurrentPasses, hd]
              constructor
              · rintro ⟨hget, hne⟩
                refine ⟨hget, (List.getElem?_eq_some_iff.mp hget).1, fun hi => ?_⟩
                exact absurd (hd.symm.trans hi) hne
              · rintro ⟨hget, -, hobserved⟩
                exact ⟨hget, fun hi => hobserved (hd.trans hi) hskip⟩
            · refine htrunc.trans ?_
              simp [emptyRound]
            · refine ⟨fun hf => ?_, fun hf => absurd hskip hf.1⟩
              exact absurd (finishedRound_eq_true.mp hf).1 Bool.false_ne_true
  · -- the merged run
    rw [if_neg hper] at h
    obtain ⟨result, hresult, h⟩ := Option.bind_eq_some_iff.mp h
    cases h
    have hfirst (i : Nat) : firstRunOf passes config controls env i =
        some ⟨result.enumerationComplete, result.enumerationErrors, env.mergedTruncated i,
          env.mergedReply i⟩ := by
      unfold firstRunOf
      rw [if_neg hper, hresult]
      rfl
    have hobserved (i : Nat) : Observed passes config controls env i ↔ i < passes.length :=
      ⟨fun hi => hi.1, fun hi => ⟨hi, fun _ hskip => hper hskip.1⟩⟩
    have hindex : (passes.zipIdx.map (fun entry => (⟨keyOf entry,
        passResult true (env.mergedReply entry.2)⟩ : PassTokenObservation))).map
          (·.pass.index) = List.range passes.length := by
      rw [List.map_map, List.range_eq_range', ← List.zipIdx_map_snd]
      rfl
    have hmem (i : Nat) : i < passes.length ↔ ∃ e ∈ passes.zipIdx, e.2 = i := by
      rw [← List.mem_range, List.range_eq_range', ← List.zipIdx_map_snd 0 passes, List.mem_map]
    refine ⟨?_, ?_, ?_, ?_, ?_, ?_, ?_⟩
    · rw [hindex]
      exact List.nodup_range
    · intro i
      rw [hindex, hobserved, List.mem_range]
    · intro i _
      rw [hfirst]
      rfl
    · simp only [List.map_map]
      refine List.map_congr_left (fun e _ => ?_)
      simp only [Function.comp_apply, keyOf, hfirst]
      rfl
    · simp only [List.any_eq_true, hfirst, hobserved, hmem]
      constructor
      · rintro ⟨e, he, ht⟩
        exact ⟨e.2, ⟨e, he, rfl⟩, ht⟩
      · rintro ⟨i, ⟨e, he, rfl⟩, ht⟩
        exact ⟨e, he, ht⟩
    · intro hne
      simp only [hfirst]
      constructor
      · intro hf i _
        exact hf
      · intro hall
        exact hall 0 (List.length_pos_iff.mpr hne)
    · intro _ o ho
      obtain ⟨e, he, rfl⟩ := List.mem_map.mp ho
      simp only [keyOf, hfirst]
      rfl

theorem firstRound_isSome (hne : passes ≠ [])
    (hran : ∀ i, Observed passes config controls env i →
      (firstRunOf passes config controls env i).isSome = true) :
    ∃ round, firstRound passes config controls env = some round := by
  unfold firstRound
  by_cases hper : needsPerPass passes config controls = true
  · have hfirst (i : Nat) : firstRunOf passes config controls env i = env.firstRun i := if_pos hper
    rw [if_pos hper]
    unfold perPassRound
    have hmem (e : AlbumPass × Nat) : e ∈ env.completion (concurrentPasses passes) ↔
        e ∈ concurrentPasses passes := (env.completion_perm _).mem_iff
    generalize env.completion (concurrentPasses passes) = entries at hmem
    have hentries : ∀ e ∈ entries, (env.firstRun e.2).isSome = true := by
      intro e he
      obtain ⟨hget, hdefer⟩ := mem_concurrentPasses.mp ((hmem e).mp he)
      rw [← hfirst]
      exact hran e.2 ⟨(List.getElem?_eq_some_iff.mp hget).1, fun h => absurd h hdefer⟩
    have hrun : runPasses env entries (emptyRound passes) = some _ :=
      runPasses_eq_some.mpr ⟨hentries, rfl⟩
    simp only [Option.bind_eq_bind, emptyRound] at hrun ⊢
    rw [hrun, Option.bind_some]
    cases hd : deferredUnfiledIndex passes with
    | none => exact ⟨_, rfl⟩
    | some index =>
        obtain ⟨pass, hpass, -⟩ := deferredUnfiledIndex_eq_some hd
        cases hex : deferredExclusionsComplete env entries with
        | false => exact ⟨_, rfl⟩
        | true =>
            have hskip : ¬ SkipsDeferred passes config controls env := by
              rw [skipsDeferred_iff hper hd hmem, hex]
              exact Bool.noConfusion
            have hsome : (env.firstRun index).isSome = true := by
              rw [← hfirst]
              exact hran index ⟨(List.getElem?_eq_some_iff.mp hpass).1, fun _ => hskip⟩
            obtain ⟨run, hrun'⟩ := Option.isSome_iff_exists.mp hsome
            simp only [if_true, hpass, runPasses, hrun', Option.bind_eq_bind, Option.bind_some]
            exact ⟨_, rfl⟩
  · rw [if_neg hper]
    have hobserved : Observed passes config controls env 0 :=
      ⟨List.length_pos_iff.mpr hne, fun _ hskip => hper hskip.1⟩
    have hsome := hran 0 hobserved
    unfold firstRunOf at hsome
    rw [if_neg hper, Option.isSome_map] at hsome
    obtain ⟨result, hresult⟩ := Option.isSome_iff_exists.mp hsome
    unfold mergedRound
    rw [hresult]
    exact ⟨_, rfl⟩

end Kei.FullEnumeration
