import Kei.Download.Plannable
import Kei.Incremental.Relations
import Kei.StateDb.Deleted

/-!
# Kei.Incremental.Accounted

What becomes of the routed pairs of a run that returns a token.

A pair is accounted for when the content filter rejects it, or its files are on
the disk, in the state database or downloaded.  The plans of a run write rows
one after the other; a write refuses a row only for a receipt that awaits its
publication, and no write prepares one.
-/

namespace Kei.Incremental

open Accum Changes FullEnumeration StateDb
open Download (DownloadTask DerivedPath deriveExpectedPaths isAssetFiltered
  excludedByFallback FilterReason DirCache)

variable {inp : Input} {engine : Engine}

/-! ## rows -/

/-- The table has a row of the key. -/
def hasRow (assets : AssetTable) (key : Key) : Bool := (assets.get? key).isSome

/-- No receipt of the asset awaits its publication. -/
def Unprepared (library id : String) (assets : AssetTable) : Prop :=
  ∀ r ∈ assets.rows, r.isAsset library id = true → r.captureRepair.isPrepared = false

variable {now : Int}

theorem hasRow_upsert {host : StateDb.Host} {record : AssetRecord} {assets assets' : AssetTable}
    (h : upsertAssetRow host record now assets = .ok assets') (key : Key) :
    hasRow assets' key = (hasRow assets key || decide (record.key = key)) := by
  let metadata := record.metadata.withHash host
  have hget : assets'.get? key = if record.key = key then
      some ((assets.get? key).elim (seenRow record metadata now)
        (AssetRow.seen record metadata now))
      else assets.get? key := by
    rw [(upsertAssetRow_ok h).1]
    exact Table.get?_upsert key
  rw [hasRow, hget]
  by_cases hsame : record.key = key <;> simp [hsame, hasRow]

variable {assets : AssetTable}

variable {library id : String} {key : Key}

/-- An upsert does not prepare a receipt. -/
theorem upserted_unprepared {c : CaptureRepair} (h : c.isPrepared = false) (sameMedia : Bool)
    (hash : Option String) : (c.upserted sameMedia hash).isPrepared = false := by
  cases sameMedia with
  | false => rfl
  | true =>
      cases hnull : c.isNull with
      | true => simp [CaptureRepair.upserted, hnull, CaptureRepair.isPrepared, notEmpty]
      | false =>
          cases hpending : c.isPending with
          | true =>
              simp [CaptureRepair.upserted, hnull, hpending, CaptureRepair.isPrepared, notEmpty]
          | false => simp [CaptureRepair.upserted, hnull, hpending, h]

theorem Unprepared.upsert {host : StateDb.Host} {record : AssetRecord} {assets' : AssetTable}
    (h : Unprepared library id assets) (hok : upsertAssetRow host record now assets = .ok assets') :
    Unprepared library id assets' := by
  rw [(upsertAssetRow_ok hok).1]
  intro r' hr' hasset
  rcases Table.mem_upsert hr' with ⟨rfl, -⟩ | ⟨r, hr, -, rfl⟩ | ⟨hr, -⟩
  · rfl
  · exact upserted_unprepared (h r hr hasset) _ _
  · exact h r' hr hasset

theorem Unprepared.accepts {host : StateDb.Host} {record : AssetRecord}
    (h : Unprepared record.library record.id assets) :
    upsertBlocked host record assets = false := by
  unfold upsertBlocked blockedCaptureRepair upsertUnchanged
  rw [Bool.or_eq_false_iff, List.any_eq_false, List.any_eq_false]
  refine ⟨fun r hr hblocked => ?_, fun r hr hblocked => ?_⟩ <;>
    simp only [Bool.and_eq_true, decide_eq_true_eq] at hblocked
  · simp [h r hr hblocked.1.1.1.1] at hblocked
  · have hasset : r.isAsset record.library record.id = true := by
      have hkey : r.key = record.key := hblocked.1.1.1
      simp only [AssetRow.key, AssetRecord.key, Key.mk.injEq] at hkey
      simp [AssetRow.isAsset, hkey]
    simp [h r hr hasset] at hblocked

/-- The rows of a table stay, and no receipt is prepared. -/
structure RowsKept (assets assets' : AssetTable) : Prop where
  rows : ∀ key, hasRow assets key = true → hasRow assets' key = true
  unprepared : ∀ library id, Unprepared library id assets → Unprepared library id assets'

theorem RowsKept.refl (assets : AssetTable) : RowsKept assets assets :=
  ⟨fun _ h => h, fun _ _ h => h⟩

theorem RowsKept.trans {a b c : AssetTable} (hab : RowsKept a b) (hbc : RowsKept b c) :
    RowsKept a c :=
  ⟨fun key h => hbc.rows key (hab.rows key h),
    fun library id h => hbc.unprepared library id (hab.unprepared library id h)⟩

/-- The write of a task is answered, and nothing is in its way. -/
def Engine.Records (engine : Engine) (assets : AssetTable) (n : Nat) (task : DownloadTask) : Prop :=
  engine.seenAnswered n task = true ∧ Unprepared task.library task.assetId assets

/-- The rows of tasks, one after the other. -/
theorem foldl_upsertSeenForTask (engine : Engine) (now : Int) (n : Nat) (asset : PhotoAsset)
    (tasks : List DownloadTask) (state : AssetTable × Nat) :
    RowsKept state.1 (tasks.foldl (upsertSeenForTask engine now n asset) state).1 ∧
      ∀ task ∈ tasks, engine.Records state.1 n task →
        hasRow (tasks.foldl (upsertSeenForTask engine now n asset) state).1
          (taskKey task) = true := by
  induction tasks generalizing state with
  | nil => exact ⟨.refl _, fun _ h => nomatch h⟩
  | cons task tasks ih =>
      have hone : RowsKept state.1 (upsertSeenForTask engine now n asset state task).1 ∧
          (engine.Records state.1 n task →
            hasRow (upsertSeenForTask engine now n asset state task).1 (taskKey task) = true) := by
        unfold upsertSeenForTask
        rcases upsertAssetRow_cases engine.dbHost (pendingRecord engine asset task).1 now state.1
          with ⟨hblocked, herror⟩ | ⟨-, assets, hok⟩
        · rw [herror]
          refine ⟨by split <;> exact .refl _, fun hrecords => ?_⟩
          have haccepts : upsertBlocked engine.dbHost (pendingRecord engine asset task).1 state.1 =
            false := hrecords.2.accepts
          exact absurd (haccepts.symm.trans hblocked) (by decide)
        · rw [hok]
          have hrow := hasRow_upsert hok
          refine ⟨?_, fun hrecords => ?_⟩
          · split
            · exact ⟨fun key h => by rw [hrow, h]; rfl, fun _ _ h => h.upsert hok⟩
            · exact .refl _
          · have hkey : (pendingRecord engine asset task).1.key = taskKey task := rfl
            rw [if_pos hrecords.1]
            simp [hrow, hkey]
      obtain ⟨hkept, hwritten⟩ := ih (upsertSeenForTask engine now n asset state task)
      rw [List.foldl_cons]
      refine ⟨hone.1.trans hkept, fun task' htask' hrecords => ?_⟩
      cases List.mem_cons.mp htask' with
      | inl hsame =>
          subst hsame
          exact hkept.rows _ (hone.2 hrecords)
      | inr hlater =>
          exact hwritten task' hlater ⟨hrecords.1, hone.1.unprepared _ _ hrecords.2⟩

/-! ## plans -/

/-- The task is one of the asset of the pair. -/
def Engine.IsOf (engine : Engine) (pair : PhotoAsset × Nat) (task : DownloadTask) : Prop :=
  task.library = pair.1.sourceZone.getD engine.config.library ∧ task.assetId = pair.1.stateId

/-- What planning a pair leaves. -/
structure Planned (inp : Input) (engine : Engine) (n : Nat) (pair : PhotoAsset × Nat)
    (state state' : Planning) (plan : PairPlan) : Prop where
  tasks : state'.tasks = state.tasks ++ plan.kept
  rows : RowsKept state.assets state'.assets
  written : inp.config.hasStateDb = true → ∀ task ∈ plan.kept, engine.Records state.assets n task →
    hasRow state'.assets (taskKey task) = true
  own : ∀ task ∈ plan.kept, engine.IsOf pair task

theorem planPair_planned {n : Nat} {pair : PhotoAsset × Nat} {state state' : Planning}
    {plan : PairPlan} (h : planPair inp engine n pair state = some (state', plan)) :
    Planned inp engine n pair state state' plan := by
  unfold planPair at h
  obtain ⟨pass, -, h⟩ := Option.bind_eq_some_iff.mp h
  obtain ⟨⟨assetPlan, planner⟩, hplan, h⟩ := Option.bind_eq_some_iff.mp h
  dsimp only at h
  split at h
  · cases h
    exact ⟨by simp, .refl _, by simp, by simp⟩
  · split at h
    · cases h
      exact ⟨by simp, .refl _, by simp, by simp⟩
    · cases h
      have hrows := foldl_upsertSeenForTask engine inp.replies.now n pair.1
        (assetPlan.tasks.filter (keepTask engine n)) (state.assets, 0)
      refine ⟨rfl, ?_, fun hstate => ?_, fun task htask => ?_⟩
      · cases inp.config.hasStateDb with
        | true => exact hrows.1
        | false => exact .refl _
      · rw [hstate]
        exact hrows.2
      · obtain ⟨d, path, rfl⟩ :=
          Download.planAsset_taskOf hplan task (List.mem_filter.mp htask).1
        exact ⟨rfl, rfl⟩

/-- What planning the pairs leaves. -/
structure AllPlanned (inp : Input) (engine : Engine) (n : Nat) (pairs : List (PhotoAsset × Nat))
    (state state' : Planning) (plans : List PairPlan) : Prop where
  length : plans.length = pairs.length
  tasks : state'.tasks = state.tasks ++ plans.flatMap (·.kept)
  rows : RowsKept state.assets state'.assets
  written : inp.config.hasStateDb = true → ∀ (k : Nat) (plan : PairPlan), plans[k]? = some plan →
    ∀ task ∈ plan.kept, engine.Records state.assets (n + k) task →
      hasRow state'.assets (taskKey task) = true
  own : ∀ (k : Nat) pair (plan : PairPlan), pairs[k]? = some pair → plans[k]? = some plan →
    ∀ task ∈ plan.kept, engine.IsOf pair task

theorem planPairs_planned {n : Nat} {pairs : List (PhotoAsset × Nat)} {state state' : Planning}
    {plans : List PairPlan} (h : planPairs inp engine n pairs state = some (state', plans)) :
    AllPlanned inp engine n pairs state state' plans := by
  induction pairs generalizing n state plans with
  | nil =>
      cases h
      exact ⟨rfl, by simp, .refl _, by simp, by simp⟩
  | cons pair pairs ih =>
      obtain ⟨⟨state₁, plan⟩, hpair, h⟩ := Option.bind_eq_some_iff.mp h
      obtain ⟨⟨state₂, rest⟩, hrest, h⟩ := Option.bind_eq_some_iff.mp h
      cases h
      have hone := planPair_planned hpair
      have hlater := ih hrest
      refine ⟨by simp [hlater.length], by simp [hlater.tasks, hone.tasks],
        hone.rows.trans hlater.rows, fun hstate k plan' hk task htask hrecords => ?_,
        fun k pair' plan' hk hk' => ?_⟩
      · cases k with
        | zero =>
            cases hk
            exact hlater.rows.rows _ (hone.written hstate task htask hrecords)
        | succ k =>
            refine hlater.written hstate k plan' hk task htask ⟨?_, ?_⟩
            · rw [Nat.add_right_comm]
              exact hrecords.1
            · exact hone.rows.unprepared _ _ hrecords.2
      · cases k with
        | zero =>
            cases hk
            cases hk'
            exact hone.own
        | succ k => exact hlater.own k pair' plan' hk hk'

/-! ## accounts -/

/-- The configuration of the pass of a pair. -/
def Engine.pairConfig (engine : Engine) (inp : Input) (pair : PhotoAsset × Nat) :
    Option Download.PassConfig :=
  (inp.passes[pair.2]?).map engine.passConfig

def isContentFilter : FilterReason → Bool
  | .malformedAsset => false
  | _ => true

/-- The content filter rejects the asset for the pass. -/
def Engine.filters (engine : Engine) (inp : Input) (pair : PhotoAsset × Nat) : Bool :=
  (engine.pairConfig inp pair).any (fun config =>
    (isAssetFiltered engine.host (engine.plannedAsset pair.1) config).any isContentFilter ||
      excludedByFallback engine.host (engine.plannedAsset pair.1).toPhotoAsset
        config.toDownloadConfig)

/-- The files of the asset under the configuration of the pass. -/
def Engine.files (engine : Engine) (inp : Input) (pair : PhotoAsset × Nat) : List DerivedPath :=
  (engine.pairConfig inp pair).elim [] (fun config =>
    deriveExpectedPaths engine.host (engine.plannedAsset pair.1).toPhotoAsset
      config.toDownloadConfig)

/-- The key of the row of a file. -/
def Engine.fileKey (engine : Engine) (pair : PhotoAsset × Nat) (d : DerivedPath) : Key :=
  ⟨pair.1.sourceZone.getD engine.config.library, pair.1.stateId, versionSizeStr d.versionSize⟩

def Engine.onDisk (engine : Engine) (d : DerivedPath) : Bool :=
  (DirCache.new.pathExists engine.host d.path).1

/-- The task is one of those that were downloaded. -/
def fetched (downloaded : List DownloadTask) (task : DownloadTask) : Bool :=
  downloaded.any (fun d => RetryTaskKey.from d = RetryTaskKey.from task)

/-- The pair is a routed one. -/
def Input.routedAt (inp : Input) (n : Nat) (pair : PhotoAsset × Nat) : Prop :=
  inp.hydrated.1.downloadableAssets.length ≤ n ∧ inp.downloadableAssets[n]? = some pair

/-- The pair at this place is rejected by the content filter, or the files that it needs are
downloaded or have rows; without a plan they are on the disk or have rows. -/
def Accounted (inp : Input) (engine : Engine) (out : Collected) (n : Nat)
    (pair : PhotoAsset × Nat) : Prop :=
  engine.filters inp pair = true ∨ engine.files inp pair ≠ [] ∧
    match out.plans[n]? with
    | some plan => ∀ task ∈ plan.kept,
        fetched out.downloadedTasks task = true ∨ hasRow out.assets (taskKey task) = true
    | none => ∀ d ∈ engine.files inp pair,
        engine.onDisk d = true ∨ hasRow out.assets (engine.fileKey pair d) = true

/-- The events that the shutdown leaves unread. -/
def Input.unread (inp : Input) : List Delivered := inp.feed.drop inp.changeEvents.length

/-- Every created asset of the delta was read, and every routed pair is accounted for. -/
structure AllAccounted (inp : Input) (engine : Engine) (out : Collected) : Prop where
  read : ∀ event ∈ inp.unread, event.reason ≠ .created
  pairs : ∀ n pair, inp.routedAt n pair → Accounted inp engine out n pair

/-! ## what is provided for -/

/-- The cap of `--recent` cuts the place. -/
def Input.cuts (inp : Input) (n : Nat) : Bool := inp.config.recent.any (fun limit => limit ≤ n)

/-- Whatever it is planned with, a task of the pair is downloaded, or it has a row, or it gets one:
the write is answered, and no receipt of the asset awaits its publication. -/
def Engine.Takes (engine : Engine) (inp : Input) (n : Nat) (pair : PhotoAsset × Nat) : Prop :=
  ∀ tasks, ∀ task ∈ tasks, engine.IsOf pair task →
    fetched (engine.download inp.config.runMode.downloadsFiles tasks).downloadedTasks task = true ∨
      hasRow engine.assets (taskKey task) = true ∨
      inp.config.hasStateDb = true ∧ engine.Records engine.assets n task

/-- The content filter rejects the asset of the pair, or it has files, and these are there already
if the cap cuts the pair, and are taken if it does not. -/
def Provided (inp : Input) (engine : Engine) (n : Nat) (pair : PhotoAsset × Nat) : Prop :=
  engine.filters inp pair = true ∨ engine.files inp pair ≠ [] ∧
    if inp.cuts n then ∀ d ∈ engine.files inp pair,
      engine.onDisk d = true ∨ hasRow engine.assets (engine.fileKey pair d) = true
    else engine.Takes inp n pair

/-- The shutdown is not seen before the last created event of the delta. -/
def Input.ReadsCreated (inp : Input) : Prop :=
  ∀ n, inp.shutdownAt = some n → ∀ event ∈ inp.feed.drop n, event.reason ≠ .created

/-- What a run with a token is made of. -/
structure Finished (inp : Input) (engine : Engine) (planning : Planning) (plans : List PairPlan)
    (out : Collected) : Prop where
  planned : engine.planning inp = some (planning, plans)
  plans : out.plans = plans
  assets : out.assets = planning.assets
  downloaded : planning.tasks = [] ∨ out.downloadedTasks =
    (engine.download inp.config.runMode.downloadsFiles planning.tasks).downloadedTasks

theorem finished_of_token {out : Collected} {token : String}
    (hrun : downloadPhotosIncrementalCollecting inp engine = some out)
    (htoken : out.result.syncToken = some token) :
    ∃ planning plans, Finished inp engine planning plans out := by
  unfold downloadPhotosIncrementalCollecting at hrun
  split at hrun
  · cases hrun
  · split at hrun
    · next hnone =>
        obtain rfl := Option.some.inj hrun
        refine ⟨⟨.new, engine.assets, [], 0, 0⟩, [], ?_, rfl, rfl, .inl rfl⟩
        have hcapped : inp.cappedAssets = [] := by
          unfold Input.cappedAssets
          split <;> simp [List.isEmpty_iff.mp hnone]
        rw [Engine.planning, hcapped]
        rfl
    · obtain ⟨⟨planning, plans⟩, hplanning, hrun⟩ := Option.bind_eq_some_iff.mp hrun
      dsimp only at hrun
      split at hrun
      · next hempty =>
          obtain rfl := Option.some.inj hrun
          exact ⟨planning, plans, hplanning, rfl, rfl, .inl (List.isEmpty_iff.mp hempty)⟩
      · split at hrun
        · obtain rfl := Option.some.inj hrun
          cases htoken
        · obtain rfl := Option.some.inj hrun
          exact ⟨planning, plans, hplanning, rfl, rfl, .inr rfl⟩

/-- The place of a routed pair has a plan exactly if the cap does not cut it. -/
theorem plan_isSome {planning : Planning} {plans : List PairPlan} {n : Nat}
    {pair : PhotoAsset × Nat} (hplanning : engine.planning inp = some (planning, plans))
    (hpair : inp.downloadableAssets[n]? = some pair) :
    (plans[n]?).isSome = !inp.cuts n := by
  have hlength := (planPairs_planned hplanning).length
  obtain ⟨hlt, -⟩ := List.getElem?_eq_some_iff.mp hpair
  rw [Bool.eq_iff_iff, Option.isSome_iff_ne_none, Ne, List.getElem?_eq_none_iff, hlength]
  unfold Input.cappedAssets Input.cuts
  cases hrecent : inp.config.recent with
  | none => simpa using hlt
  | some limit => simp; omega

theorem capped_of_uncut {n : Nat} {pair : PhotoAsset × Nat} (hcuts : inp.cuts n = false)
    (hpair : inp.downloadableAssets[n]? = some pair) : inp.cappedAssets[n]? = some pair := by
  unfold Input.cuts at hcuts
  unfold Input.cappedAssets
  cases hrecent : inp.config.recent with
  | none => exact hpair
  | some limit =>
      have hlt : n < limit := by simpa [hrecent] using hcuts
      exact (List.getElem?_take_of_lt hlt).trans hpair

theorem unread_of_token {out : Collected} {token : String} (h : inp.ReadsCreated)
    (hrun : downloadPhotosIncrementalCollecting inp engine = some out)
    (htoken : out.result.syncToken = some token) :
    ∀ event ∈ inp.unread, event.reason ≠ .created := by
  obtain ⟨errors, hunblocked⟩ := tokenUnlessBlocked_of_token hrun htoken
  have hpasses : inp.passes ≠ [] := by
    simp only [Input.tokenUnlessBlocked, Input.syncToken, List.isEmpty_iff,
      Option.ite_none_right_eq_some, Option.ite_none_left_eq_some] at hunblocked
    exact hunblocked.2.1
  unfold Input.unread Input.changeEvents
  rw [if_neg (by simpa using hpasses)]
  cases hshutdown : inp.shutdownAt with
  | none => simp
  | some n =>
      intro event hevent
      refine h n hshutdown event ?_
      rw [List.length_take] at hevent
      cases Nat.le_total n inp.feed.length with
      | inl hle => rwa [Nat.min_eq_left hle] at hevent
      | inr hge => simp [Nat.min_eq_right hge] at hevent

/-- A new photo. -/
def photoCreated (name : String) : Delivered :=
  { ChangeEvent.new name (some "CPLAsset") .created with
    asset := some ⟨name, name, none, none, .null, .null⟩
    replies := { wellReplied with stateRecordName := some name } }

/-- Two new photos, of which `--recent` leaves one. -/
def cutInput : Input :=
  { albumInput [⟨.unfiled, "", none, []⟩] (fun _ => none) [photoCreated "a", photoCreated "b"] with
    config := ⟨"PrimarySync", true, .download, some 1⟩ }

theorem cutInput_token :
    (downloadPhotosIncrementalCollecting cutInput plainEngine).bind (·.result.syncToken) =
      some "next" := by decide +kernel

/-- The second photo at the end of the run, by name and pass: without a plan, and with a file that
has no row and is not on the disk. -/
theorem cutInput_second :
    (downloadPhotosIncrementalCollecting cutInput plainEngine).map (fun out =>
      (cutInput.downloadableAssets.drop 1).map (fun pair =>
        (plainEngine.filters cutInput pair, (out.plans[1]?).isNone,
          (plainEngine.files cutInput pair).map (fun d =>
            (plainEngine.onDisk d, hasRow out.assets (plainEngine.fileKey pair d)))))) =
      some [(false, true, [(false, false)])] := by decide +kernel

/-- The two photos without the cap. -/
def uncutInput : Input :=
  { cutInput with config := ⟨"PrimarySync", true, .download, none⟩ }

end Kei.Incremental
