import Kei.FullEnumeration.Coverage
import Kei.FullEnumeration.Streams
import Kei.Lib.Cuts

/-!
# Kei.FullEnumeration.Apart

What the deferred unfiled pass is handed, apart from the assets of the albums.

The album passes record what they take.  When they all end, the unfiled pass is
handed the rest of the library, which has no member of an album as long as the
bounds cut no member from its albums that they leave in the library.  When one
does not end, the unfiled pass is left out and the enumeration is incomplete,
but its repair goes over the other passes alone and may complete it.
-/

namespace Kei.FullEnumeration
namespace FullRun

variable (run : FullRun)

def IsAlbum (i : Nat) : Prop := ∃ pass, run.passes[i]? = some pass ∧ pass.kind = .album

/-- The asset is in a selected album; `members` are those of the album of each pass. -/
def InAlbum (members : Nat → List String) (name : String) : Prop :=
  ∃ i, run.IsAlbum i ∧ name ∈ members i

/-- The pass takes its stream to the end, and nothing goes wrong. -/
structure Ends (consumption : Consumption) (i : Nat) : Prop where
  passed : consumption.failed = false
  drained : consumption.taken = none
  noOther : consumption.otherErrors = 0
  noError : ∀ item ∈ run.bounded i, item.toOption.isSome = true

/-- The pass ends, and none of its fetchers has panicked. -/
def Clean (consumption : Consumption) (i : Nat) : Prop :=
  run.Ends consumption i ∧ run.streams.panicked i = false

/-- The album passes take their streams like `albums`; the other ones do not fail. -/
structure Follows (albums consumption : Nat → Consumption) : Prop where
  albums : ∀ i, run.IsAlbum i → consumption i = albums i
  others : ∀ i, ¬run.IsAlbum i → (consumption i).failed = false

/-- What the deferred unfiled pass at `index` should be handed. -/
structure Apart (members : Nat → List String) (index : Nat) (consumption : Nat → Consumption)
    (base : RunEnv) : Prop where
  disjoint : ∀ asset ∈ assetsIn (run.handed consumption base index),
    ¬run.InAlbum members asset.assetRecordName
  once : (∀ i, run.IsAlbum i → run.Clean (consumption i) i) →
    ∀ asset ∈ assetsIn (run.bounded index), ¬run.InAlbum members asset.assetRecordName →
      ((assetsIn (run.handed consumption base index)).map (·.assetRecordName)).count
        asset.assetRecordName = 1
  withheld : (∃ i, run.IsAlbum i ∧ ¬run.Clean (consumption i) i) →
    run.handed consumption base index = [] ∧ run.reportsComplete consumption base ≠ some true

/-- The members that the bounds leave in the library they leave in an album too. -/
def Covered (members : Nat → List String) (index : Nat) : Prop :=
  ∀ asset ∈ assetsIn (run.bounded index), run.InAlbum members asset.assetRecordName →
    ∃ i, run.IsAlbum i ∧
      asset.assetRecordName ∈ (assetsIn (run.bounded i)).map (·.assetRecordName)

/-- The pass comes upon an asset below its lower date bound. -/
def ReachesBound (consumption : Consumption) (i : Nat) : Prop :=
  consumption.taken = none ∧ ∃ item ∈ run.stream i,
    inBounds (streamCreatedLowerBound run.config run.frontier) item = false

/-- What the album passes leave is not repaired: the run is a read-only one, or one without
repair; an album pass fails as a whole, or it comes upon its lower date bound. -/
def Unrepaired (albums : Nat → Consumption) : Prop :=
  tokenAttemptAllowed run.controls = false ∨ run.repairTokenGaps = false ∨
    ∃ i, run.IsAlbum i ∧ ((albums i).failed = true ∨ run.ReachesBound (albums i) i)

/-- The streams yield what the provider lists, newest first, and albums list assets of the
library. -/
structure Lists (listing : Nat → List ListedAsset) (index : Nat) : Prop where
  stream : ∀ i limit, run.streams.pass i limit =
    ((limit.map (fun n => (listing i).take n)).getD (listing i)).map .ok
  newest : ∀ i, (listing i).Pairwise (fun a b => b.created ≤ a.created)
  library : ∀ i, run.IsAlbum i → ∀ asset ∈ listing i, asset ∈ listing index
  nodup : ((listing index).map (·.assetRecordName)).Nodup

variable {run}

/-! ## the album passes -/

theorem mem_assetsIn {items : List Item} {asset : ListedAsset} :
    asset ∈ assetsIn items ↔ .ok asset ∈ items := by
  unfold assetsIn
  rw [List.mem_filterMap]
  constructor
  · rintro ⟨item, hitem, heq⟩
    cases item with
    | ok a => cases heq; exact hitem
    | error e => cases heq
  · intro h
    exact ⟨.ok asset, h, rfl⟩

theorem errorsIn_eq_zero {items : List Item} :
    errorsIn items = 0 ↔ ∀ item ∈ items, item.toOption.isSome = true := by
  simp [errorsIn, List.countP_eq_zero, Option.isSome_iff_ne_none]

theorem isAlbum_iff {i : Nat} :
    run.IsAlbum i ↔ ∃ e ∈ concurrentPasses run.passes, e.1.kind = .album ∧ e.2 = i := by
  constructor
  · rintro ⟨pass, hpass, hkind⟩
    refine ⟨(pass, i), mem_concurrentPasses.mpr ⟨hpass, fun hdeferred => ?_⟩, hkind, rfl⟩
    obtain ⟨pass', hpass', hkind'⟩ := deferredUnfiledIndex_eq_some hdeferred
    rw [hpass] at hpass'
    cases hpass'
    rw [hkind] at hkind'
    contradiction
  · rintro ⟨e, he, hkind, rfl⟩
    exact ⟨e.1, (mem_concurrentPasses.mp he).1, hkind⟩

theorem finished_iff {consumption : Consumption} {i : Nat} :
    Finished (run.passRun consumption i) = true ↔ run.Ends consumption i := by
  unfold passRun
  constructor
  · intro h
    cases hfailed : consumption.failed with
    | true => simp [hfailed, Finished] at h
    | false =>
        simp only [hfailed, Bool.false_eq_true, if_false, Finished, Option.any_some,
          PassRun.finished, Bool.and_eq_true, Option.isNone_iff_eq_none, beq_iff_eq,
          Nat.add_eq_zero_iff] at h
        obtain ⟨hdrained, herrors, hother⟩ := h
        refine ⟨hfailed, hdrained, hother, errorsIn_eq_zero.mp ?_⟩
        simpa [takenBy, hdrained] using herrors
  · intro h
    have herrors := errorsIn_eq_zero.mpr h.noError
    simp [Finished, PassRun.finished, takenBy, h.passed, h.drained, h.noOther, herrors]

theorem mem_deferredIds {consumption : Nat → Consumption} {name : String} :
    name ∈ run.deferredIds consumption ↔ ∃ i, run.IsAlbum i ∧
      name ∈ (assetsIn (run.takenBy (consumption i) i)).map (·.assetRecordName) := by
  unfold deferredIds
  simp only [List.mem_flatMap, List.mem_filter, decide_eq_true_eq]
  constructor
  · rintro ⟨e, ⟨he, hkind⟩, hname⟩
    exact ⟨e.2, isAlbum_iff.mpr ⟨e, he, hkind, rfl⟩, hname⟩
  · rintro ⟨i, halbum, hname⟩
    obtain ⟨e, he, hkind, rfl⟩ := isAlbum_iff.mp halbum
    exact ⟨e, ⟨he, hkind⟩, hname⟩

section

variable {consumption : Nat → Consumption} {base : RunEnv} {index : Nat}

theorem mem_completion {e : AlbumPass × Nat} :
    e ∈ (run.env consumption base).completion (concurrentPasses run.passes) ↔
      e ∈ concurrentPasses run.passes :=
  ((run.env consumption base).completion_perm _).mem_iff

theorem exclusionsComplete_iff :
    deferredExclusionsComplete (run.env consumption base)
        ((run.env consumption base).completion (concurrentPasses run.passes)) = true ↔
      ∀ i, run.IsAlbum i → run.Ends (consumption i) i := by
  rw [deferredExclusionsComplete_eq_true]
  constructor
  · intro h i halbum
    obtain ⟨e, he, hkind, rfl⟩ := isAlbum_iff.mp halbum
    exact finished_iff.mp (h e (mem_completion.mpr he) hkind)
  · intro h e he hkind
    exact finished_iff.mpr (h e.2 (isAlbum_iff.mpr ⟨e, mem_completion.mp he, hkind, rfl⟩))

variable {i : Nat}

theorem passRun_isSome :
    (run.passRun (consumption i) i).isSome = true ↔ (consumption i).failed = false := by
  unfold passRun
  cases (consumption i).failed <;> simp

theorem runPasses_of_passed (hpassed : ∀ i, (consumption i).failed = false) (round : Round) :
    runPasses (run.env consumption base)
        ((run.env consumption base).completion (concurrentPasses run.passes)) round =
      some (((run.env consumption base).completion (concurrentPasses run.passes)).foldl
        (fun r e => r.add e (runOr (run.passRun (consumption e.2) e.2))) round) :=
  runPasses_eq_some.mpr ⟨fun e _ => passRun_isSome.mpr (hpassed e.2), rfl⟩

theorem runPasses_of_failed (halbum : run.IsAlbum i) (hfailed : (consumption i).failed = true)
    (round : Round) :
    runPasses (run.env consumption base)
      ((run.env consumption base).completion (concurrentPasses run.passes)) round = none := by
  rw [Option.eq_none_iff_forall_ne_some]
  intro round' h
  obtain ⟨e, he, -, rfl⟩ := isAlbum_iff.mp halbum
  have hsome := (runPasses_eq_some.mp h).1 e (mem_completion.mpr he)
  rw [show (run.env consumption base).firstRun e.2 = run.passRun (consumption e.2) e.2 from rfl,
    passRun_isSome, hfailed] at hsome
  contradiction

theorem exclusions_of_not_ends (halbum : run.IsAlbum i) (hends : ¬run.Ends (consumption i) i) :
    deferredExclusionsComplete (run.env consumption base)
      ((run.env consumption base).completion (concurrentPasses run.passes)) = false := by
  rw [← Bool.not_eq_true, exclusionsComplete_iff]
  exact fun h => hends (h i halbum)

/-- **An album pass that does not end** leaves the unfiled pass without a stream. -/
theorem handed_of_not_ends (halbum : run.IsAlbum i) (hends : ¬run.Ends (consumption i) i) :
    run.handed consumption base index = [] := by
  unfold handed
  simp only [exclusions_of_not_ends halbum hends]
  split <;> rfl

/-- **When the album passes end**, the unfiled pass is handed what they have not recorded. -/
theorem handed_of_ends (hpassed : ∀ i, (consumption i).failed = false)
    (hends : ∀ i, run.IsAlbum i → run.Ends (consumption i) i) {asset : ListedAsset} :
    asset ∈ assetsIn (run.handed consumption base index) ↔
      asset ∈ assetsIn (run.bounded index) ∧ ¬∃ i, run.IsAlbum i ∧
        asset.assetRecordName ∈ (assetsIn (run.bounded i)).map (·.assetRecordName) := by
  have hids : asset.assetRecordName ∈ run.deferredIds consumption ↔ ∃ i, run.IsAlbum i ∧
      asset.assetRecordName ∈ (assetsIn (run.bounded i)).map (·.assetRecordName) := by
    rw [mem_deferredIds]
    refine exists_congr (fun i => and_congr_right (fun halbum => ?_))
    simp only [takenBy, (hends i halbum).drained]
  unfold handed
  simp only [runPasses_of_passed hpassed, exclusionsComplete_iff.mpr hends, if_true]
  rw [mem_assetsIn, mem_assetsIn, List.mem_filter, ← hids]
  simp

theorem handed_sublist :
    ((assetsIn (run.handed consumption base index)).map (·.assetRecordName)).Sublist
      ((assetsIn (run.bounded index)).map (·.assetRecordName)) := by
  refine (List.Sublist.filterMap _ ?_).map _
  simp only [handed]
  split
  · exact List.nil_sublist _
  · split
    · exact List.filter_sublist
    · exact List.nil_sublist _

/-! ## whether the enumeration is reported complete -/

/-- The repair of a run whose passes can all be repeated. -/
def Repeats (base : RunEnv) : Prop :=
  base.recoveryConfigsBuilt = true ∧
    ∀ i, ∃ r, base.recoveryRun i = some r ∧ r.enumerationComplete = true

variable {passes : List AlbumPass} {env : RunEnv}

theorem foldl_recoverPass (h : Repeats env) {keys : List PassKey}
    (hkeys : ∀ key ∈ keys, key.index < passes.length) (state : Recovery) :
    (keys.foldl (recoverPass passes env) state).enumerationComplete = state.enumerationComplete ∧
      (keys.foldl (recoverPass passes env) state).completedPasses =
        state.completedPasses + keys.length ∧
      (keys.foldl (recoverPass passes env) state).round.streaming.enumerationComplete =
        state.round.streaming.enumerationComplete := by
  induction keys generalizing state with
  | nil => simp
  | cons key rest ih =>
      obtain ⟨hkey, hrest⟩ := List.forall_mem_cons.mp hkeys
      obtain ⟨run, hrun, hcomplete⟩ := h.2 key.index
      rw [List.foldl_cons]
      obtain ⟨h₁, h₂, h₃⟩ := ih hrest (recoverPass passes env state key)
      rw [h₁, h₂, h₃]
      unfold recoverPass
      simp only [List.getElem?_eq_getElem hkey, h.1, if_true, hrun, hcomplete, Bool.and_true,
        mergeStreamingResult, true_and, and_true, List.length_cons]
      omega

variable {round : Round}

/-- A repair that goes through reports the enumeration complete, whatever passes it leaves. -/
theorem decideToken_complete (h : Repeats env) {repair : Bool} (hne : round.observations ≠ [])
    (hlt : ∀ o ∈ round.observations, o.pass.index < passes.length)
    (hround : round.streaming.enumerationComplete = true ∨
      repair = true ∧ round.boundsTruncated = false) :
    (decideToken passes env repair round).round.streaming.enumerationComplete = true := by
  unfold decideToken
  rcases initialEvidence_cases round with ⟨htrunc, reason, hev⟩ |
    ⟨htrunc, ⟨hfin, t, hev, -, -⟩ | ⟨ks, reason, hev, -, hks⟩ | ⟨hnil, -⟩⟩
  · simpa [hev, htrunc] using hround
  · simpa [hev] using (finishedRound_eq_true.mp hfin).1
  · cases repair with
    | false => simpa [hev] using hround
    | true =>
        have hkeys : ∀ key ∈ ks, key.index < passes.length := by
          intro key hkey
          obtain ⟨o, ho, rfl, -⟩ := (hks key).mp hkey
          exact hlt o ho
        obtain ⟨hcomplete, hran, hkept⟩ := foldl_recoverPass h hkeys ⟨true, 0, 0, round⟩
        simp only [hev, if_true, recoveredDecision_round, recoverPasses]
        split
        · simp [hcomplete, hran]
        · next hentire =>
            rw [hkept]
            have hfin := finishedRound_eq_not_repairEntire htrunc
            rw [Bool.eq_false_iff.mpr hentire] at hfin
            exact (finishedRound_eq_true.mp hfin).1
  · exact absurd hnil hne

theorem decideToken_round {repair : Bool} (h : repair = false ∨ round.boundsTruncated = true) :
    (decideToken passes env repair round).round = round := by
  unfold decideToken
  cases hev : initialEvidence round with
  | complete t => rfl
  | incomplete reason => rfl
  | recoverable ks reason =>
      rcases h with rfl | htrunc
      · rfl
      · simp [initialEvidence, htrunc] at hev

theorem boundsTruncated_iff {c : Consumption} (hpassed : c.failed = false) :
    (runOr (run.passRun c i)).boundsTruncated = true ↔ run.ReachesBound c i := by
  simp [runOr, passRun, hpassed, ReachesBound, Option.isNone_iff_eq_none]

/-- The round of the passes but the deferred one. -/
def concurrentRound (run : FullRun) (consumption : Nat → Consumption) (base : RunEnv) : Round :=
  ((run.env consumption base).completion (concurrentPasses run.passes)).foldl
    (fun r e => r.add e (runOr (run.passRun (consumption e.2) e.2))) (emptyRound run.passes)

theorem concurrentRound_truncated (hpassed : ∀ i, (consumption i).failed = false) :
    (run.concurrentRound consumption base).boundsTruncated = true ↔
      ∃ e ∈ concurrentPasses run.passes, run.ReachesBound (consumption e.2) e.2 := by
  obtain ⟨-, -, htrunc, -⟩ := foldl_add (fun i => runOr (run.passRun (consumption i) i))
    ((run.env consumption base).completion (concurrentPasses run.passes)) (emptyRound run.passes)
  rw [concurrentRound, htrunc]
  simp only [emptyRound, Bool.false_eq_true, false_or, mem_completion,
    boundsTruncated_iff (hpassed _)]

theorem mem_concurrentRound {o : PassTokenObservation}
    (h : o ∈ (run.concurrentRound consumption base).observations) :
    o.pass.index < run.passes.length := by
  obtain ⟨hobs, -⟩ := foldl_add (fun i => runOr (run.passRun (consumption i) i))
    ((run.env consumption base).completion (concurrentPasses run.passes)) (emptyRound run.passes)
  rw [concurrentRound, hobs] at h
  simp only [emptyRound, List.nil_append, List.mem_map, mem_completion] at h
  obtain ⟨e, he, rfl⟩ := h
  exact (List.getElem?_eq_some_iff.mp (mem_concurrentPasses.mp he).1).1

theorem concurrentRound_ne_nil (halbum : run.IsAlbum i) :
    (run.concurrentRound consumption base).observations ≠ [] := by
  obtain ⟨hobs, -⟩ := foldl_add (fun i => runOr (run.passRun (consumption i) i))
    ((run.env consumption base).completion (concurrentPasses run.passes)) (emptyRound run.passes)
  obtain ⟨e, he, -⟩ := isAlbum_iff.mp halbum
  rw [concurrentRound, hobs]
  simp only [emptyRound, List.nil_append, ne_eq, List.map_eq_nil_iff]
  exact List.ne_nil_of_mem (mem_completion.mpr he)

theorem perPassRound_of_runs {pass : AlbumPass}
    (hdeferred : deferredUnfiledIndex passes = some index) (hpass : passes[index]? = some pass)
    (hruns : runPasses env (env.completion (concurrentPasses passes)) (emptyRound passes) =
      some round) :
    perPassRound passes env =
      if deferredExclusionsComplete env (env.completion (concurrentPasses passes)) then
        runPasses env [(pass, index)] round
      else some { round with streaming.enumerationComplete := false } := by
  unfold emptyRound at hruns
  unfold perPassRound
  simp only [hruns, Option.bind_eq_bind, Option.bind_some, hdeferred, hpass]
  rfl

/-- The first round, with the unfiled pass left out. -/
def leftOut (run : FullRun) (consumption : Nat → Consumption) (base : RunEnv) : Round :=
  { run.concurrentRound consumption base with streaming.enumerationComplete := false }

theorem firstRound_of_not_ends
    (hper : needsPerPass run.passes run.config.toDownloadConfig run.controls = true)
    (hdeferred : deferredUnfiledIndex run.passes = some index)
    (hpassed : ∀ i, (consumption i).failed = false) (halbum : run.IsAlbum i)
    (hends : ¬run.Ends (consumption i) i) :
    firstRound run.passes run.config.toDownloadConfig run.controls (run.env consumption base) =
      some (run.leftOut consumption base) := by
  obtain ⟨pass, hpass, -⟩ := deferredUnfiledIndex_eq_some hdeferred
  rw [firstRound, if_pos hper, perPassRound_of_runs hdeferred hpass (runPasses_of_passed hpassed _),
    exclusions_of_not_ends halbum hends]
  rfl

theorem reportsComplete_of_firstRound
    (h : firstRound run.passes run.config.toDownloadConfig run.controls
      (run.env consumption base) = some round) :
    run.reportsComplete consumption base = some (if tokenAttemptAllowed run.controls then
      (decideToken run.passes (run.env consumption base) run.repairTokenGaps
        round).round.streaming.enumerationComplete
      else round.streaming.enumerationComplete) := by
  rw [reportsComplete, h]
  split <;> rfl

theorem failed_of_follows {albums : Nat → Consumption} (h : run.Follows albums consumption)
    (hno : ∀ i, run.IsAlbum i → (albums i).failed = false) (i : Nat) :
    (consumption i).failed = false := by
  by_cases halbum : run.IsAlbum i
  · rw [h.albums i halbum]
    exact hno i halbum
  · exact h.others i halbum

theorem foldl_add_complete (runs : Nat → PassRun) (entries : List (AlbumPass × Nat)) (round : Round)
    (hruns : ∀ i, (runs i).enumerationComplete = true) :
    (entries.foldl (fun r e => r.add e (runs e.2)) round).streaming.enumerationComplete =
      round.streaming.enumerationComplete := by
  induction entries generalizing round with
  | nil => rfl
  | cons e rest ih =>
      rw [List.foldl_cons, ih]
      simp [Round.add, mergeStreamingResult, hruns e.2]

/-- The first round, when the passes all take their streams to the end. -/
theorem firstRound_of_drained
    (hper : needsPerPass run.passes run.config.toDownloadConfig run.controls = true)
    (hdeferred : deferredUnfiledIndex run.passes = some index)
    (hpassed : ∀ i, (consumption i).failed = false)
    (hdrained : ∀ i, (consumption i).taken = none)
    (hends : ∀ i, run.IsAlbum i → run.Ends (consumption i) i) :
    ∃ round, firstRound run.passes run.config.toDownloadConfig run.controls
        (run.env consumption base) = some round ∧ round.observations ≠ [] ∧
      (∀ o ∈ round.observations, o.pass.index < run.passes.length) ∧
      round.streaming.enumerationComplete = true := by
  obtain ⟨pass, hpass, -⟩ := deferredUnfiledIndex_eq_some hdeferred
  have hlt : index < run.passes.length := (List.getElem?_eq_some_iff.mp hpass).1
  have hcomplete : ∀ i, (runOr (run.passRun (consumption i) i)).enumerationComplete = true := by
    intro i
    simp [runOr, passRun, hpassed i, hdrained i]
  refine ⟨(run.concurrentRound consumption base).add (pass, index)
    (runOr (run.passRun (consumption index) index)), ?_, ?_, ?_, ?_⟩
  · rw [firstRound, if_pos hper,
      perPassRound_of_runs hdeferred hpass (runPasses_of_passed hpassed _),
      if_pos (exclusionsComplete_iff.mpr hends)]
    exact runPasses_eq_some.mpr ⟨fun e _ => passRun_isSome.mpr (hpassed e.2), rfl⟩
  · simp [Round.add]
  · intro o ho
    rcases List.mem_append.mp ho with ho | ho
    · exact mem_concurrentRound ho
    · rw [List.mem_singleton.mp ho]
      exact hlt
  · have hne : run.passes ≠ [] := List.ne_nil_of_length_pos (Nat.zero_lt_of_lt hlt)
    have hround : (run.concurrentRound consumption base).streaming.enumerationComplete = true := by
      rw [concurrentRound, foldl_add_complete _ _ _ hcomplete]
      simp [emptyRound, hne]
    simp [Round.add, mergeStreamingResult, hround, hcomplete index]

end

/-! ## the pass apart -/

/-- A stream that nothing stops. -/
def drain : Consumption := ⟨none, 0, false, .dropped⟩

/-- A stream that is stopped before its first item. -/
def interrupt : Consumption := ⟨some 0, 0, false, .dropped⟩

/-- The other passes take their streams like `other`. -/
def withOther (run : FullRun) (albums : Nat → Consumption) (other : Consumption) (i : Nat) :
    Consumption :=
  if run.passes[i]?.any (fun pass => pass.kind = .album) then albums i else other

variable {members : Nat → List String} {index : Nat} {albums consumption : Nat → Consumption}
  {base : RunEnv} {other : Consumption}

theorem withOther_album {i : Nat} (h : run.IsAlbum i) :
    run.withOther albums other i = albums i := by
  obtain ⟨pass, hpass, hkind⟩ := h
  simp [withOther, hpass, hkind]

theorem withOther_other {i : Nat} (h : ¬run.IsAlbum i) : run.withOther albums other i = other := by
  cases hpass : run.passes[i]? with
  | none => simp [withOther, hpass]
  | some pass =>
      have hkind : pass.kind ≠ .album := fun hkind => h ⟨pass, hpass, hkind⟩
      simp [withOther, hpass, hkind]

theorem follows_withOther (h : other.failed = false) :
    run.Follows albums (run.withOther albums other) where
  albums _ halbum := withOther_album halbum
  others i halbum := by rw [withOther_other halbum, h]

theorem repeats_repaired : Repeats (run.env consumption albumRepaired) :=
  ⟨rfl, fun _ => ⟨_, rfl, rfl⟩⟩

section

variable (hper : needsPerPass run.passes run.config.toDownloadConfig run.controls = true)
  (hdeferred : deferredUnfiledIndex run.passes = some index)

include hper

theorem reports_of_failed {i : Nat} (halbum : run.IsAlbum i)
    (hfailed : (consumption i).failed = true) : run.reportsComplete consumption base = none := by
  have hruns : runPasses (run.env consumption base)
      ((run.env consumption base).completion (concurrentPasses run.passes))
      (emptyRound run.passes) = none := runPasses_of_failed halbum hfailed _
  unfold emptyRound at hruns
  rw [reportsComplete, firstRound, if_pos hper, perPassRound]
  simp only [hruns, Option.bind_eq_bind, Option.bind_none]

include hdeferred

/-- An unfinished run that is not repaired is not reported complete. -/
theorem reports_of_unrepaired (hfollows : run.Follows albums consumption) {i : Nat}
    (halbum : run.IsAlbum i) (hends : ¬run.Ends (consumption i) i) (h : run.Unrepaired albums) :
    run.reportsComplete consumption base ≠ some true := by
  by_cases hfailed : ∃ j, run.IsAlbum j ∧ (albums j).failed = true
  · obtain ⟨j, hj, hfailed⟩ := hfailed
    rw [← hfollows.albums j hj] at hfailed
    simp [reports_of_failed hper hj hfailed]
  · have hpassed := failed_of_follows hfollows (fun j hj => by
      rw [Bool.eq_false_iff]
      exact fun hf => hfailed ⟨j, hj, hf⟩)
    have hincomplete : (run.leftOut consumption base).streaming.enumerationComplete = false := rfl
    rw [reportsComplete_of_firstRound
      (firstRound_of_not_ends hper hdeferred hpassed halbum hends)]
    rcases h with hallowed | hrepair | ⟨j, hj, hf | hbound⟩
    · simp [hallowed, hincomplete]
    · simp [decideToken_round (.inl hrepair), hincomplete]
    · exact absurd ⟨j, hj, hf⟩ hfailed
    · rw [← hfollows.albums j hj] at hbound
      obtain ⟨e, he, -, rfl⟩ := isAlbum_iff.mp hj
      have htrunc : (run.leftOut consumption base).boundsTruncated = true :=
        (concurrentRound_truncated hpassed).mpr ⟨e, he, hbound⟩
      simp [decideToken_round (.inr htrunc), hincomplete]

theorem unrepaired_of_apart {i : Nat} (halbum : run.IsAlbum i)
    (hends : ¬run.Ends (albums i) i)
    (hapart : run.Apart members index (run.withOther albums interrupt) albumRepaired) :
    run.Unrepaired albums := by
  by_contra hrepaired
  simp only [Unrepaired, not_or, not_exists, not_and, Bool.not_eq_false,
    Bool.not_eq_true] at hrepaired
  obtain ⟨hallowed, hrepair, hno⟩ := hrepaired
  have hfollows : run.Follows albums (run.withOther albums interrupt) := follows_withOther rfl
  have hpassed := failed_of_follows hfollows (fun j hj => (hno j hj).1)
  rw [← hfollows.albums i halbum] at hends
  have htrunc : (run.leftOut (run.withOther albums interrupt)
      albumRepaired).boundsTruncated = false := by
    rw [← Bool.not_eq_true]
    intro htrunc
    obtain ⟨e, -, hbound⟩ := (concurrentRound_truncated hpassed).mp htrunc
    by_cases he : run.IsAlbum e.2
    · rw [withOther_album he] at hbound
      exact (hno e.2 he).2 hbound
    · rw [withOther_other he] at hbound
      exact absurd hbound.1 (by simp [interrupt])
  have hne : (run.leftOut (run.withOther albums interrupt) albumRepaired).observations ≠ [] :=
    concurrentRound_ne_nil halbum
  refine (hapart.withheld ⟨i, halbum, fun hclean => hends hclean.1⟩).2 ?_
  rw [reportsComplete_of_firstRound (firstRound_of_not_ends hper hdeferred hpassed halbum hends),
    hallowed, if_pos rfl, decideToken_complete repeats_repaired hne
      (fun o ho => mem_concurrentRound ho) (.inr ⟨hrepair, htrunc⟩)]

theorem not_panicked_of_apart (hends : ∀ i, run.IsAlbum i → run.Ends (albums i) i)
    (hapart : run.Apart members index (run.withOther albums drain) albumRepaired) {i : Nat}
    (halbum : run.IsAlbum i) : run.streams.panicked i = false := by
  have hfollows : run.Follows albums (run.withOther albums drain) := follows_withOther rfl
  have hpassed := failed_of_follows hfollows (fun i hi => (hends i hi).passed)
  have hends' : ∀ i, run.IsAlbum i → run.Ends (run.withOther albums drain i) i := by
    intro i hi
    rw [hfollows.albums i hi]
    exact hends i hi
  have hdrained : ∀ i, (run.withOther albums drain i).taken = none := by
    intro i
    by_cases hi : run.IsAlbum i
    · exact (hends' i hi).drained
    · rw [withOther_other hi]
      rfl
  by_contra hpanicked
  refine (hapart.withheld ⟨i, halbum, fun hclean => hpanicked hclean.2⟩).2 ?_
  obtain ⟨round, hround, hne, hlt, hcomplete⟩ :=
    firstRound_of_drained hper hdeferred hpassed hdrained hends'
  rw [reportsComplete_of_firstRound hround, hcomplete,
    decideToken_complete repeats_repaired hne hlt (.inl hcomplete)]
  simp

end

theorem covered_of_apart (hfollows : run.Follows albums consumption)
    (hends : ∀ i, run.IsAlbum i → run.Ends (albums i) i)
    (hapart : run.Apart members index consumption base) : run.Covered members index := by
  have hpassed := failed_of_follows hfollows (fun i hi => (hends i hi).passed)
  have hends' : ∀ i, run.IsAlbum i → run.Ends (consumption i) i := by
    intro i hi
    rw [hfollows.albums i hi]
    exact hends i hi
  intro asset hasset hin
  by_contra hnone
  exact hapart.disjoint asset ((handed_of_ends hpassed hends').mpr ⟨hasset, hnone⟩) hin

/-- Albums that end, with the members of the library, leave the rest of it. -/
theorem apart_of_ends (hpassed : ∀ i, (consumption i).failed = false)
    (hends : ∀ i, run.IsAlbum i → run.Ends (consumption i) i)
    (hpanicked : ∀ i, run.IsAlbum i → run.streams.panicked i = false)
    (hcovered : run.Covered members index)
    (hmembers : ∀ i, run.IsAlbum i → ∀ asset ∈ assetsIn (run.bounded i),
      asset.assetRecordName ∈ members i)
    (hnodup : ((assetsIn (run.bounded index)).map (·.assetRecordName)).Nodup) :
    run.Apart members index consumption base where
  disjoint asset hasset hin := by
    obtain ⟨hbounded, hnone⟩ := (handed_of_ends hpassed hends).mp hasset
    exact hnone (hcovered asset hbounded hin)
  once _ asset hasset hout := by
    have hmem : asset ∈ assetsIn (run.handed consumption base index) := by
      refine (handed_of_ends hpassed hends).mpr ⟨hasset, ?_⟩
      rintro ⟨i, hi, hname⟩
      obtain ⟨asset', hasset', heq⟩ := List.mem_map.mp hname
      exact hout ⟨i, hi, heq ▸ hmembers i hi asset' hasset'⟩
    exact List.count_eq_one_of_mem (hnodup.sublist handed_sublist) (List.mem_map_of_mem hmem)
  withheld := by
    rintro ⟨i, hi, hunclean⟩
    exact absurd ⟨hends i hi, hpanicked i hi⟩ hunclean

/-! ## bounds that agree -/

section

variable {listing : Nat → List ListedAsset}

theorem falls_inBounds (bound : Option Int) {assets : List ListedAsset}
    (h : assets.Pairwise (fun a b => b.created ≤ a.created)) :
    Cuts.Falls (inBounds bound) (assets.map .ok) := by
  refine List.pairwise_map.mpr (h.imp (fun hle => ?_))
  cases bound with
  | none => simp [inBounds]
  | some boundary =>
      simp only [inBounds, Option.all_some, decide_eq_true_eq]
      omega

theorem mem_bounded (h : run.Lists listing index) {i : Nat} {asset : ListedAsset} :
    asset ∈ assetsIn (run.bounded i) ↔
      asset ∈ ((scopeFrontierLimit run.config run.frontier).map
        (fun n => (listing i).take n)).getD (listing i) ∧
      inBounds (streamCreatedLowerBound run.config run.frontier) (.ok asset) = true ∧
      inFrontier run.frontier (.ok asset) = true := by
  have hnewest : (((scopeFrontierLimit run.config run.frontier).map
      (fun n => (listing i).take n)).getD (listing i)).Pairwise
      (fun a b => b.created ≤ a.created) := by
    cases scopeFrontierLimit run.config run.frontier with
    | none => exact h.newest i
    | some n => exact (h.newest i).sublist (List.take_sublist n _)
  rw [mem_assetsIn, bounded, filterStreamToEnumerationBounds, List.mem_filter, stream, h.stream,
    Cuts.mem_takeWhile (falls_inBounds _ hnewest), and_assoc]
  simp

/-- **The same bounds on all streams** leave a member in its albums when they leave it in the
library, unless a limit counts assets that the listings order differently. -/
theorem covered_of_lists (h : run.Lists listing index)
    (hlimit : scopeFrontierLimit run.config run.frontier = none ∨
      ∀ i, run.IsAlbum i → (listing i).Sublist (listing index)) :
    run.Covered (fun i => (listing i).map (·.assetRecordName)) index := by
  rintro asset hasset ⟨i, halbum, hname⟩
  obtain ⟨asset', hasset', heq⟩ := List.mem_map.mp hname
  rw [mem_bounded h] at hasset
  obtain ⟨hlisted, hbounds, hfrontier⟩ := hasset
  have hmem : asset ∈ listing index := by
    cases hl : scopeFrontierLimit run.config run.frontier with
    | none => simpa [hl] using hlisted
    | some n => exact List.mem_of_mem_take (by simpa [hl] using hlisted)
  have hsame : asset' = asset :=
    List.inj_on_of_nodup_map h.nodup (h.library i halbum asset' hasset') hmem heq
  rw [hsame] at hasset'
  refine ⟨i, halbum, List.mem_map_of_mem ((mem_bounded h).mpr ⟨?_, hbounds, hfrontier⟩)⟩
  cases hl : scopeFrontierLimit run.config run.frontier with
  | none => simpa using hasset'
  | some n =>
      have hsub := hlimit.resolve_left (by simp [hl]) i halbum
      have htake : asset ∈ (listing index).take n := by simpa [hl] using hlisted
      simpa using Cuts.mem_take_of_sublist hsub (List.Nodup.of_map _ h.nodup) hasset' htake

theorem members_of_lists (h : run.Lists listing index) {i : Nat} {asset : ListedAsset}
    (hasset : asset ∈ assetsIn (run.bounded i)) :
    asset.assetRecordName ∈ (listing i).map (·.assetRecordName) := by
  have hlisted := ((mem_bounded h).mp hasset).1
  cases hl : scopeFrontierLimit run.config run.frontier with
  | none => exact List.mem_map_of_mem (by simpa [hl] using hlisted)
  | some n => exact List.mem_map_of_mem (List.mem_of_mem_take (by simpa [hl] using hlisted))

theorem nodup_of_lists (h : run.Lists listing index) :
    ((assetsIn (run.bounded index)).map (·.assetRecordName)).Nodup := by
  refine h.nodup.sublist (List.Sublist.map _ ?_)
  have hok (assets : List ListedAsset) : assetsIn (assets.map .ok) = assets := by
    simp [assetsIn, List.filterMap_map, Function.comp_def, Except.toOption]
  have hstream : (assetsIn (run.stream index)).Sublist (listing index) := by
    rw [stream, h.stream, hok]
    cases scopeFrontierLimit run.config run.frontier with
    | none => exact List.Sublist.refl _
    | some n => exact List.take_sublist n _
  refine List.Sublist.trans (List.Sublist.filterMap _ ?_) hstream
  exact List.filter_sublist.trans (List.takeWhile_sublist _)

theorem ends_of_lists (h : run.Lists listing index) (i : Nat) : run.Ends drain i := by
  refine ⟨rfl, rfl, rfl, fun item hitem => ?_⟩
  have hstream := (List.filter_sublist.trans (List.takeWhile_sublist _)).subset hitem
  rw [stream, h.stream, List.mem_map] at hstream
  obtain ⟨asset, -, rfl⟩ := hstream
  rfl

end

/-! ## the result -/

/-- **The unfiled pass is handed what is in no album**: exactly when the bounds cut no member
from its albums alone, no fetcher of an album has panicked, and no repair goes over a run from
which the pass was left out. -/
theorem apart_iff (run : FullRun) (members : Nat → List String) (index : Nat)
    (albums : Nat → Consumption)
    (hper : needsPerPass run.passes run.config.toDownloadConfig run.controls = true)
    (hdeferred : deferredUnfiledIndex run.passes = some index)
    (hmembers : ∀ i, run.IsAlbum i → ∀ asset ∈ assetsIn (run.bounded i),
      asset.assetRecordName ∈ members i)
    (hnodup : ((assetsIn (run.bounded index)).map (·.assetRecordName)).Nodup) :
    (∀ consumption base, run.Follows albums consumption →
        run.Apart members index consumption base) ↔
      ((∀ i, run.IsAlbum i → run.Ends (albums i) i) →
        (∀ i, run.IsAlbum i → run.streams.panicked i = false) ∧ run.Covered members index) ∧
      ((∃ i, run.IsAlbum i ∧ ¬run.Ends (albums i) i) → run.Unrepaired albums) := by
  constructor
  · intro hapart
    refine ⟨fun hends => ⟨fun i hi => ?_, ?_⟩, ?_⟩
    · exact not_panicked_of_apart hper hdeferred hends
        (hapart _ _ (follows_withOther rfl)) hi
    · exact covered_of_apart (follows_withOther rfl) hends
        (hapart (run.withOther albums drain) albumRepaired (follows_withOther rfl))
    · rintro ⟨i, hi, hends⟩
      exact unrepaired_of_apart hper hdeferred hi hends (hapart _ _ (follows_withOther rfl))
  · rintro ⟨hall, hsome⟩ consumption base hfollows
    by_cases hends : ∀ i, run.IsAlbum i → run.Ends (albums i) i
    · obtain ⟨hpanicked, hcovered⟩ := hall hends
      refine apart_of_ends (failed_of_follows hfollows (fun i hi => (hends i hi).passed))
        (fun i hi => ?_) hpanicked hcovered hmembers hnodup
      rw [hfollows.albums i hi]
      exact hends i hi
    · simp only [not_forall] at hends
      obtain ⟨i, hi, hends⟩ := hends
      have hends' : ¬run.Ends (consumption i) i := by
        rw [hfollows.albums i hi]
        exact hends
      have hnil : run.handed consumption base index = [] := handed_of_not_ends hi hends'
      refine ⟨?_, fun hclean => absurd (hclean i hi).1 hends', fun _ => ⟨hnil, ?_⟩⟩
      · rw [hnil]
        intro asset hasset
        simp [assetsIn] at hasset
      · exact reports_of_unrepaired hper hdeferred hfollows hi hends' (hsome ⟨i, hi, hends⟩)

/-- An album with one of the two assets of the library. -/
def tripsListing : Nat → List ListedAsset
  | 0 => [⟨"A", 2⟩]
  | 1 => [⟨"A", 2⟩, ⟨"B", 1⟩]
  | _ => []

def tripsRun : FullRun where
  passes := albumAndUnfiled
  config := ⟨true, true, none, .global, none⟩
  controls := ⟨false, false⟩
  streams := {
    libraryWide := fun _ => []
    pass := fun i limit =>
      ((limit.map (fun n => (tripsListing i).take n)).getD (tripsListing i)).map .ok
    panicked := fun _ => false }
  frontier := none
  repairTokenGaps := true

theorem trips_lists : tripsRun.Lists tripsListing 1 where
  stream _ _ := rfl
  newest i := by
    match i with
    | 0 => decide
    | 1 => decide
    | _ + 2 => exact List.Pairwise.nil
  library i halbum := by
    obtain ⟨pass, hpass, hkind⟩ := halbum
    match i with
    | 0 => simp [tripsListing]
    | 1 =>
        cases hpass
        contradiction
    | n + 2 => simp [tripsRun, albumAndUnfiled] at hpass
  nodup := by decide

/-- A photo of the album is in the library too, and goes to the album only. -/
theorem trips_apart : tripsRun.Apart (fun i => (tripsListing i).map (·.assetRecordName)) 1
    (fun _ => drain) albumRepaired :=
  (apart_iff tripsRun _ 1 (fun _ => drain) (by decide) (by decide)
    (fun _ _ _ hasset => members_of_lists trips_lists hasset) (nodup_of_lists trips_lists)).mpr
    ⟨fun _ => ⟨fun _ _ => rfl, covered_of_lists trips_lists (.inl rfl)⟩,
      fun ⟨i, _, hends⟩ => absurd (ends_of_lists trips_lists i) hends⟩ _ _
    ⟨fun _ _ => rfl, fun _ _ => rfl⟩

/-- An interrupted album whose repair goes through: the unfiled pass is never run, and the
enumeration counts as complete. -/
theorem unfiled_left_out :
    ¬ ∀ (run : FullRun) (listing : Nat → List ListedAsset) (index : Nat)
      (consumption : Nat → Consumption) (base : RunEnv),
      needsPerPass run.passes run.config.toDownloadConfig run.controls = true →
      deferredUnfiledIndex run.passes = some index → run.Lists listing index →
      (∀ i, ¬run.IsAlbum i → (consumption i).failed = false) →
      run.Apart (fun i => (listing i).map (·.assetRecordName)) index consumption base := by
  intro h
  have hapart := h tripsRun tripsListing 1 (fun _ => interrupt) albumRepaired (by decide)
    (by decide) trips_lists (fun _ _ => rfl)
  have halbum : tripsRun.IsAlbum 0 := ⟨_, rfl, rfl⟩
  have hreported : tripsRun.reportsComplete (fun _ => interrupt) albumRepaired = some true := by
    decide +kernel
  refine (hapart.withheld ⟨0, halbum, fun hclean => ?_⟩).2 hreported
  exact absurd hclean.1.drained (by simp [interrupt])

end FullRun
end Kei.FullEnumeration
