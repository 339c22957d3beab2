import Kei.Lib.Ghost
import Kei.SyncCycle.Reconcile

/-!
# Kei.SyncCycle.Paths

Cycles with the downloaded rows beside them.

The path hash of the database is one value, and the rows belong to libraries.
Here a cycle runs with a record of every downloaded row: the path hash it was
written under, and those under which a complete path reconciliation covered it.
The cycle itself never looks at that record (`runCycleOn_erases`).
-/

namespace Kei.SyncCycle

open Store
open Prog

/-! ## the downloaded rows -/

/-- The path hashes of a downloaded row. -/
structure Placement where
  writtenUnder : String
  /-- Since it was written. -/
  coveredUnder : List String
  deriving DecidableEq

/-- The row was written under the hash, or covered under it. -/
def Placement.IsUnder (placement : Placement) (hash : String) : Prop :=
  placement.writtenUnder = hash ∨ hash ∈ placement.coveredUnder

/-- The live downloaded rows, by library and id. -/
abbrev Placements := (zone : String) → (id : String) → Option Placement

/-- What a run does to a row. -/
inductive RowEffect where
  | keeps
  | writes
  | removes
  deriving DecidableEq

/-- What a run does to the rows; a run of one library may write rows of another. -/
abbrev RowEffects := (zone : String) → (id : String) → RowEffect

namespace Placements

/-- Every row of the library is under the hash. -/
def Under (rows : Placements) (hash zone : String) : Prop :=
  ∀ id placement, rows zone id = some placement → placement.IsUnder hash

/-- A run under the hash. -/
def apply (rows : Placements) (hash : String) (effects : RowEffects) : Placements :=
  fun zone id =>
    match effects zone id with
    | .keeps => rows zone id
    | .writes => some ⟨hash, []⟩
    | .removes => none

/-- A complete reconciliation of the library under the hash. -/
def cover (rows : Placements) (hash zone : String) : Placements := fun other id =>
  if other = zone then
    (rows other id).map (fun row => { row with coveredUnder := hash :: row.coveredUnder })
  else rows other id

theorem under_apply {rows : Placements} {hash zone : String} {effects : RowEffects}
    (h : rows.Under hash zone) : (rows.apply hash effects).Under hash zone := by
  intro id placement hplacement
  unfold apply at hplacement
  cases heffect : effects zone id with
  | keeps =>
      rw [heffect] at hplacement
      exact h id placement hplacement
  | writes =>
      rw [heffect] at hplacement
      cases hplacement
      exact .inl rfl
  | removes =>
      rw [heffect] at hplacement
      contradiction

theorem under_cover_self (rows : Placements) (hash zone : String) :
    (rows.cover hash zone).Under hash zone := by
  intro id placement hplacement
  rw [cover, if_pos rfl] at hplacement
  obtain ⟨row, -, rfl⟩ := Option.map_eq_some_iff.mp hplacement
  exact .inr List.mem_cons_self

theorem under_cover {rows : Placements} {hash zone : String} (other : String)
    (h : rows.Under hash zone) : (rows.cover hash other).Under hash zone := by
  by_cases hzone : zone = other
  · subst hzone
    exact under_cover_self rows hash zone
  · intro id placement hplacement
    rw [cover, if_neg hzone] at hplacement
    exact h id placement hplacement

end Placements

/-! ## a cycle with its rows -/

/-- What the runs of a history do to the rows: a download run by its position in the
history, a reconciliation by the calls before it. -/
structure RowWrites where
  download : Nat → RowEffects
  reconciliation : Nat → RowEffects

structure PathWorld where
  world : World
  rows : Placements
  /-- The hash of the last run since the stored path hash was last set. -/
  latest : Option String

/-- The stored path hash. -/
def PathWorld.stored (s : PathWorld) : Option String := s.world.rows downloadConfigHashKey

abbrev PathCycle (α : Type) := Prog PathWorld Halt α

/-- A dry run and one without a database write no row. -/
def CycleInput.writesRows (inp : CycleInput) : Bool := !inp.config.dryRun && inp.hasStateDb

/-- The event is a download run. -/
def Event.isDownload : Event → Bool
  | .download .. => true
  | .stored .. | .promoted .. => false

/-- The rows after the download runs among the events, the first of which is at `position`. -/
def afterDownloads (hash : String) (writes : RowWrites) :
    (position : Nat) → List Event → Placements → Placements
  | _, [], rows => rows
  | position, event :: events, rows =>
      afterDownloads hash writes (position + 1) events
        (if event.isDownload then rows.apply hash (writes.download position) else rows)

section cycle

variable (inp : CycleInput) (env : Env) (writes : RowWrites)

/-- The rows follow what the cycle has done. -/
def PathWorld.follow (s : PathWorld) (world : World) : PathWorld :=
  let events := if inp.writesRows then world.log.drop s.world.log.length else []
  { world := world,
    rows := afterDownloads inp.config.downloadConfigHash writes s.world.log.length events s.rows,
    latest :=
      if world.rows downloadConfigHashKey = s.stored then
        if events.any Event.isDownload then some inp.config.downloadConfigHash else s.latest
      else none }

/-- A part of the cycle that reconciles no paths. -/
def onPaths {α : Type} (x : Cycle α) : PathCycle α :=
  shadow PathWorld.world (PathWorld.follow inp writes) x

/-- The rows after a path reconciliation of the library. -/
def PathWorld.reconcile (zone : String) (s : PathWorld) : PathWorld :=
  let hash := inp.config.downloadConfigHash
  let rows := s.rows.apply hash (writes.reconciliation s.world.calls)
  { s with
    rows :=
      if (env.reconcileCatalogPaths s.world.calls zone).any (·.complete) then
        rows.cover hash zone
      else rows,
    latest := some hash }

def reconcilePathsOn (facts : CycleFacts) (lib : LibraryState) (st : LoopState) :
    PathCycle LoopState := do
  Prog.modify (fun s =>
    if facts.pendingDownloadConfigHash.isSome then s.reconcile inp env writes lib.zoneName else s)
  onPaths inp writes (reconcilePaths env facts lib st)

def runLibraryOn (facts : CycleFacts) (position : Nat) (lib : LibraryState) (st : LoopState) :
    PathCycle (LoopState × Bool) := do
  let pendingZoneToken ← onPaths inp writes (readPendingZoneToken inp env facts lib)
  let decision ← onPaths inp writes (chooseSyncMode inp env facts lib pendingZoneToken)
  onPaths inp writes (persistFullEnumerationReason inp env decision.fullEnumerationReason)
  let st ← reconcilePathsOn inp env writes facts lib st
  let inventory ← onPaths inp writes
    (downloadPhotosWithSync inp env position lib decision.mode decision.source)
  let (result, basis) ← onPaths inp writes (bridgeInventory inp env facts position lib inventory)
  let cancelled := inp.isCancelled (2 * position + 1)
  onPaths inp writes (updateInventoryAnchorForCycle inp env lib result cancelled)
  onPaths inp writes (finishLibrary inp env facts position lib decision.fullEnumerationReason
    result basis cancelled st)

def runLibrariesOn (facts : CycleFacts) :
    Nat → List LibraryState → LoopState → PathCycle LoopState
  | _, [], st => return st
  | i, lib :: rest, st =>
      if inp.isCancelled (2 * i) then
        return st
      else do
        let (st, stop) ← runLibraryOn inp env writes facts i lib st
        if stop then
          return st
        else
          runLibrariesOn facts (i + 1) rest st

/-- One sync cycle, and what it does to the rows. -/
def runCycleOn : PathCycle CycleResult := do
  let enumOutcome ← onPaths inp writes (checkEnumConfigHash inp env)
  let downloadOutcome ← onPaths inp writes (checkDownloadConfigHash inp env)
  let facts := cycleFacts inp enumOutcome downloadOutcome
  let st ← runLibrariesOn inp env writes facts 0 inp.active (LoopState.start inp facts)
  let last := 2 * inp.active.length
  let advanceSafe ← onPaths inp writes
    (finishReconciliation inp env facts st (inp.isCancelled last))
  onPaths inp writes (promotePathReconciliation inp env facts st (inp.isCancelled (last + 1)))
  return ⟨st.failedCount, st.sessionExpired, st.stats, advanceSafe⟩

end cycle

/-! ## the cycle does not look at the rows -/

variable {inp : CycleInput} {env : Env} {writes : RowWrites} {facts : CycleFacts}

theorem onPaths_erases {α : Type} (x : Cycle α) :
    Erases PathWorld.world (onPaths inp writes x) x := Erases.shadow (fun _ _ => rfl) x

theorem reconcilePathsOn_erases {lib : LibraryState} {st : LoopState} :
    Erases PathWorld.world (reconcilePathsOn inp env writes facts lib st)
      (reconcilePaths env facts lib st) := by
  refine Erases.ghost (fun s => ?_) (onPaths_erases _)
  split <;> rfl

theorem runLibraryOn_erases {position : Nat} {lib : LibraryState} {st : LoopState} :
    Erases PathWorld.world (runLibraryOn inp env writes facts position lib st)
      (runLibrary inp env facts position lib st) := by
  refine Erases.bind (onPaths_erases _) (fun pending => ?_)
  refine Erases.bind (onPaths_erases _) (fun decision => ?_)
  refine Erases.bind (onPaths_erases _) (fun _ => ?_)
  refine Erases.bind reconcilePathsOn_erases (fun st => ?_)
  refine Erases.bind (onPaths_erases _) (fun inventory => ?_)
  refine Erases.bind (onPaths_erases _) (fun p => ?_)
  exact Erases.bind (onPaths_erases _) (fun _ => onPaths_erases _)

theorem runLibrariesOn_erases (libs : List LibraryState) (i : Nat) (st : LoopState) :
    Erases PathWorld.world (runLibrariesOn inp env writes facts i libs st)
      (runLibraries inp env facts i libs st) := by
  induction libs generalizing i st with
  | nil => exact Erases.pure st
  | cons lib rest ih =>
      refine Erases.ite (Erases.pure st) (Erases.bind runLibraryOn_erases (fun p => ?_))
      exact Erases.ite (Erases.pure p.1) (ih (i + 1) p.1)

/-- **The rows follow the cycle and do not change it.** -/
theorem runCycleOn_erases (inp : CycleInput) (env : Env) (writes : RowWrites) :
    Erases PathWorld.world (runCycleOn inp env writes) (runCycle inp env) := by
  refine Erases.bind (onPaths_erases _) (fun enumOutcome => ?_)
  refine Erases.bind (onPaths_erases _) (fun downloadOutcome => ?_)
  refine Erases.bind (runLibrariesOn_erases _ _ _) (fun st => ?_)
  refine Erases.bind (onPaths_erases _) (fun advanceSafe => ?_)
  exact Erases.bind (onPaths_erases _) (fun _ => Erases.pure _)

/-! ## runs of cycles -/

/-- A cycle and everything it meets. -/
structure CycleRun where
  inp : CycleInput
  env : Env
  writes : RowWrites

def CycleRun.run (c : CycleRun) (s : PathWorld) : PathWorld := (runCycleOn c.inp c.env c.writes s).2

/-- Cycles one after the other, also after one that halted: the process starts again. -/
def runCyclesOn (cycles : List CycleRun) (s : PathWorld) : PathWorld :=
  cycles.foldl (fun s c => c.run s) s

/-- **Runs with the rows leave the same world** as the runs of the cycles. -/
theorem runCyclesOn_world (cycles : List CycleRun) (s : PathWorld) :
    (runCyclesOn cycles s).world = runCycles (cycles.map (fun c => (c.inp, c.env))) s.world := by
  induction cycles generalizing s with
  | nil => rfl
  | cons c cycles ih =>
      have hcycle : (c.run s).world = (runCycle c.inp c.env s.world).2 :=
        (runCycleOn_erases c.inp c.env c.writes s).2
      show (runCyclesOn cycles (c.run s)).world = _
      rw [ih, hcycle]
      rfl

end Kei.SyncCycle
