import Kei.SyncCycle.FirstRuns

/-!
# Kei.Reset

The `reset sync-token` command, and the watch pre-check that may find the
database in the state the command left when it stopped.

The command makes three writes, one after the other: it blanks the old
database token, deletes the zones' active tokens, and empties the table of
scoped database tokens.  The candidates of a reconciliation stay, and between
the last two writes the pre-check still trusts a token that vouches for zones
without one.
-/

namespace Kei.Reset

open Str
open Store
open Prog
open SyncCycle

/-! ## the store -/

/-- The primary key of `scoped_db_sync_tokens`. -/
structure ScopeKey where
  provider : String
  account : String
  shapeVersion : Int
  scopeHash : String
  deriving DecidableEq

/-- The other columns of a scoped database token. -/
structure ScopedDbSyncToken where
  selectedZonesJson : String
  scopeJson : String
  token : String
  deriving DecidableEq

/-- The tables the command writes. -/
structure Db where
  rows : Rows
  scopedTokens : ScopeKey → Option ScopedDbSyncToken

/-- What opening the state database gives: a missing one is created. -/
def opened (db : Option Db) : Db := db.getD ⟨fun _ => none, fun _ => none⟩

def Db.setMetadata (key value : String) (db : Db) : Db := { db with rows := db.rows.set key value }

def Db.deleteMetadataByPrefix (pre : String) (db : Db) : Db :=
  { db with rows := db.rows.deleteByPrefix pre }

def Db.upsertScopedDbSyncToken (key : ScopeKey) (row : ScopedDbSyncToken) (db : Db) : Db :=
  { db with scopedTokens := fun k => if k = key then some row else db.scopedTokens k }

def Db.deleteScopedDbSyncTokens (db : Db) : Db := { db with scopedTokens := fun _ => none }

/-! ## the command -/

/-- How the command is confirmed. -/
structure Confirmation where
  yes : Bool
  canPrompt : Bool
  /-- The line typed at the prompt, when it could be read. -/
  input : Option String
  deriving DecidableEq

inductive ResetOutcome where
  | noDatabase
  | cancelled
  | cleared
  deriving DecidableEq

/-- The command runs on the database file, which may be missing. -/
abbrev Command (α : Type) := Prog (Option Db) Halt α

def confirm (c : Confirmation) : Command Bool := do
  if c.yes then
    return true
  else if !c.canPrompt then
    Prog.halt .failed
  else
    match c.input with
    | none => Prog.halt .failed
    | some input => return eqIgnoreAsciiCase (trim input) "y"

/-- A call on the database, as it ends. -/
def call (fault : Fault) (f : Db → Db) : Command Unit :=
  match fault with
  | .none => Prog.modify (Option.map f)
  | .fails => Prog.halt .failed
  | .stops => Prog.halt .stopped

/-- `reset sync-token`.  The first call opens the database. -/
def runResetSyncToken (c : Confirmation) (fault : Nat → Fault) : Command ResetOutcome := do
  if (← Prog.read Option.isSome) then
    if ← confirm c then
      call (fault 0) id
      call (fault 1) (Db.setMetadata "db_sync_token" "")
      call (fault 2) (Db.deleteMetadataByPrefix "sync_token:")
      call (fault 3) Db.deleteScopedDbSyncTokens
      return .cleared
    else
      return .cancelled
  else
    return .noDatabase

/-! ## the watch pre-check -/

/-- The answer to `changes/database`. -/
structure ChangesDatabaseResponse where
  syncToken : String
  moreComing : Bool
  /-- The names of the changed zones. -/
  zones : List String
  deriving DecidableEq

inductive WatchPrecheck where
  | skipAll
  | proceed (changedZones : Option (List String)) (dbSyncTokenAfterSuccess : Option String)
  deriving DecidableEq

def WatchPrecheck.proceedAll : WatchPrecheck := .proceed none none

def WatchPrecheck.shouldSyncZone (p : WatchPrecheck) (zoneName : String) : Bool :=
  match p with
  | .skipAll => false
  | .proceed (some zones) _ => zones.contains zoneName
  | .proceed none _ => true

/-- The scope the running configuration asks for. -/
structure DbPrecheckScope where
  key : ScopeKey
  selectedZonesJson : String
  scopeJson : String
  deriving DecidableEq

/-- Which texts parse: as JSON, and as a JSON list of strings. -/
structure Serde where
  isValue : String → Bool
  isStrings : String → Bool

/-- What a pre-check meets outside itself. -/
structure PrecheckEnv where
  readFails : Bool
  storeFails : Bool
  /-- The answer for a token, unless the request fails. -/
  changesDatabase : Option String → Option ChangesDatabaseResponse

/-- Without a stored token the answer is only used to start one. -/
def bootstrap (env : PrecheckEnv) : WatchPrecheck :=
  match env.changesDatabase none with
  | some response =>
      if !response.moreComing then
        .proceed none (some response.syncToken)
      else
        .proceedAll
  | none => .proceedAll

/-- The stored token answers for the scope. -/
def answersFor (serde : Serde) (scope : DbPrecheckScope) (row : ScopedDbSyncToken) : Bool :=
  serde.isValue row.scopeJson && row.scopeJson == scope.scopeJson &&
    serde.isStrings row.selectedZonesJson && row.selectedZonesJson == scope.selectedZonesJson

/-- Act on the changes since the stored token. -/
def checkChanges (env : PrecheckEnv) (libraryStates : List LibraryState) (scope : DbPrecheckScope)
    (token : String) (db : Db) : WatchPrecheck × Db :=
  match env.changesDatabase (some token) with
  | none => (.proceedAll, db)
  | some response =>
      let changedSelectedZones :=
        response.zones.filter (fun z => libraryStates.any (fun s => s.zoneName == z))
      if changedSelectedZones.isEmpty then
        if response.moreComing then
          (.proceed none (some response.syncToken), db)
        else if !response.zones.isEmpty && !env.storeFails then
          (.skipAll, db.upsertScopedDbSyncToken scope.key
            ⟨scope.selectedZonesJson, scope.scopeJson, response.syncToken⟩)
        else
          (.skipAll, db)
      else
        (.proceed (if response.moreComing then none else some changedSelectedZones)
          (some response.syncToken), db)

/-- `check_changes_database`, with a state database. -/
def checkChangesDatabase (serde : Serde) (env : PrecheckEnv) (libraryStates : List LibraryState)
    (scope : DbPrecheckScope) (db : Db) : WatchPrecheck × Db :=
  if libraryStates.isEmpty then
    (.skipAll, db)
  else if env.readFails then
    (.proceedAll, db)
  else
    match (db.scopedTokens scope.key).filter (fun row => (nonBlank (some row.token)).isSome) with
    | none => (bootstrap env, db)
    | some row =>
        if answersFor serde scope row then
          checkChanges env libraryStates scope row.token db
        else
          (.proceedAll, db)

/-- A wake-up of the watch loop: the pre-check, and the metadata rows that a cycle after it
leaves when it has no database token to store. -/
structure WakeUp where
  env : PrecheckEnv
  cycle : Rows → Rows

/-- The answers of successive pre-checks. -/
def prechecks (serde : Serde) (libraryStates : List LibraryState) (scope : DbPrecheckScope) :
    List WakeUp → Db → List WatchPrecheck
  | [], _ => []
  | wake :: rest, db =>
      let answer := checkChangesDatabase serde wake.env libraryStates scope db
      answer.1 :: prechecks serde libraryStates scope rest
        { answer.2 with rows := wake.cycle answer.2.rows }

/-! ## what the command leaves behind -/

/-- The database after the first `k` writes. -/
def afterWrites (db : Db) : Nat → Db
  | 0 => db
  | 1 => db.setMetadata "db_sync_token" ""
  | 2 => (db.setMetadata "db_sync_token" "").deleteMetadataByPrefix "sync_token:"
  | _ =>
      ((db.setMetadata "db_sync_token" "").deleteMetadataByPrefix
        "sync_token:").deleteScopedDbSyncTokens

/-- Some of the writes were made. -/
def Left (db : Db) (s : Option Db) : Prop := ∃ k ≤ 3, s = some (afterWrites db k)

theorem call_triple {fault : Fault} {f : Db → Db} {db : Db} {k : Nat} (hk : k ≤ 3)
    (db₀ : Db) (hdb : db = afterWrites db₀ k) :
    Triple (fun s => s = some db) (call fault f) (fun _ s => s = some (f db)) (Left db₀) := by
  cases fault with
  | none => exact Triple.modify (fun s hs => by rw [hs]; rfl)
  | fails => exact Triple.halt (fun s hs => ⟨k, hk, by rw [hs, hdb]⟩)
  | stops => exact Triple.halt (fun s hs => ⟨k, hk, by rw [hs, hdb]⟩)

/-- **However the command ends**, it made its writes up to one of them, and all of them when it
says that it cleared the tokens. -/
theorem runResetSyncToken_triple (c : Confirmation) (fault : Nat → Fault) (db : Db) :
    Triple (fun s => s = some db) (runResetSyncToken c fault)
      (fun o s => Left db s ∧ o ≠ .noDatabase ∧ (o = .cleared → s = some (afterWrites db 3)))
      (Left db) := by
  have hleft {s : Option Db} (h : s = some db) : Left db s := ⟨0, Nat.zero_le 3, h⟩
  refine Triple.bind (R := fun found s => found = true ∧ s = some db)
    (fun s hs => ⟨by rw [hs]; rfl, hs⟩) (fun found => ?_)
  refine Triple.ite (fun _ => ?_) (fun hno => Triple.pre (fun s hs => hs.1) (absurd · hno))
  have hconfirm : Triple (fun s => found = true ∧ s = some db) (confirm c)
      (fun _ s => s = some db) (Left db) := by
    refine Triple.ite (fun _ => Triple.pure (fun s hs => hs.2)) (fun _ => ?_)
    refine Triple.ite (fun _ => Triple.halt (fun s hs => hleft hs.2)) (fun _ => ?_)
    cases c.input with
    | none => exact Triple.halt (fun s hs => hleft hs.2)
    | some input => exact Triple.pure (fun s hs => hs.2)
  refine Triple.bind hconfirm (fun confirmed => Triple.ite (fun _ => ?_) (fun _ => ?_))
  · refine Triple.bind (call_triple (k := 0) (by decide) db rfl) (fun _ => ?_)
    refine Triple.bind (call_triple (k := 0) (by decide) db rfl) (fun _ => ?_)
    refine Triple.bind (call_triple (k := 1) (by decide) db rfl) (fun _ => ?_)
    refine Triple.bind (call_triple (k := 2) (by decide) db rfl) (fun _ => ?_)
    exact Triple.pure (fun s hs => ⟨⟨3, Nat.le_refl 3, hs⟩, by decide, fun _ => hs⟩)
  · exact Triple.pure (fun s hs => ⟨hleft hs, by decide, fun h => by contradiction⟩)

theorem runResetSyncToken_clean (db : Db) :
    runResetSyncToken ⟨true, false, none⟩ (fun _ => .none) (some db) =
      (.ok .cleared, some (afterWrites db 3)) := rfl

theorem runResetSyncToken_stopped (db : Db) :
    runResetSyncToken ⟨true, false, none⟩ (fun n => if n = 3 then .stops else .none) (some db) =
      (.error .stopped, some (afterWrites db 2)) := rfl

theorem afterWrites_syncToken (db : Db) (zone : String) :
    (afterWrites db 3).rows (syncTokenKey zone) = none := by
  refine deleteByPrefix_of _ ?_
  rw [syncTokenKey, String.toList_append]
  exact likePrefix_append _ _

theorem afterWrites_other (db : Db) {key : String} {c : Char} (hkey : keyHead key = some c)
    (hd : c ≠ 'd') (hs : likeChar 's' c = false) : (afterWrites db 3).rows key = db.rows key := by
  have hlike : likePrefix "sync_token:".toList key.toList = false := by
    obtain ⟨cs, hcs⟩ := List.head?_eq_some_iff.mp hkey
    rw [hcs]
    exact likePrefix_eq_false hs
  exact (deleteByPrefix_of_not _ hlike).trans
    (set_of_ne _ (ne_of_keyHead hkey (by decide : keyHead _ = some 'd') hd))

theorem resumes_afterWrites (inp : CycleInput) (db : Db) (zone : String) :
    Resumes inp (afterWrites db 3).rows zone ↔ Resumes inp db.rows zone := by
  have hhash : (afterWrites db 3).rows enumConfigHashKey = db.rows enumConfigHashKey :=
    afterWrites_other db (c := 'e') (by decide) (by decide) (by decide)
  have hpending : (afterWrites db 3).rows pendingEnumConfigHashKey =
      db.rows pendingEnumConfigHashKey :=
    afterWrites_other db (c := 'p') (by decide) (by decide) (by decide)
  have hcandidate (hash : String) : (afterWrites db 3).rows (pendingZoneTokenKey hash zone) =
      db.rows (pendingZoneTokenKey hash zone) :=
    afterWrites_other db (keyHead_pendingZoneTokenKey hash zone) (by decide) (by decide)
  constructor
  · rintro ⟨h₁, h₂, h₃, h₄, h₅, h₆⟩
    exact ⟨h₁, h₂, h₃, hhash ▸ h₄, hpending ▸ h₅, hcandidate _ ▸ h₆⟩
  · rintro ⟨h₁, h₂, h₃, h₄, h₅, h₆⟩
    exact ⟨h₁, h₂, h₃, hhash.symm ▸ h₄, hpending.symm ▸ h₅, (hcandidate _).symm ▸ h₆⟩

/-! ## the next cycle -/

/-- After a command that was not cancelled, the next cycle enumerates every selected library in
full: whatever happens in it, each zone's first run is a full enumeration, and when nothing cuts
it short every zone has one. -/
def EnumeratesAll (inp : CycleInput) (db : Option Db) : Prop :=
  ∀ c fault outcome left, runResetSyncToken c fault db = (.ok outcome, left) →
    outcome ≠ .cancelled → ∀ env shutdown result w,
      runCycle { inp with shutdown := shutdown } env ⟨(opened left).rows, 0, []⟩ = (result, w) →
      ∀ lib ∈ inp.active, FullFirst lib.zoneName w.log ∧
        ∀ r, result = .ok r → shutdown = none → r.sessionExpired = false →
          firstSource lib.zoneName w.log = some .full

theorem reset_rows {c : Confirmation} {fault : Nat → Fault} {db left : Option Db}
    {outcome : ResetOutcome} (h : runResetSyncToken c fault db = (.ok outcome, left))
    (hout : outcome ≠ .cancelled) (inp : CycleInput) (zone : String) :
    (opened left).rows (syncTokenKey zone) = none ∧
      (Resumes inp (opened left).rows zone → Resumes inp (opened db).rows zone) := by
  cases db with
  | none =>
      cases h
      exact ⟨rfl, id⟩
  | some db =>
      have hend := (runResetSyncToken_triple c fault db).ok rfl h
      have hcleared : outcome = .cleared := by
        cases outcome with
        | noDatabase => exact absurd rfl hend.2.1
        | cancelled => exact absurd rfl hout
        | cleared => rfl
      rw [hend.2.2 hcleared]
      exact ⟨afterWrites_syncToken db zone, (resumes_afterWrites inp db zone).mp⟩

/-- **When the next cycle enumerates everything**: when it has no reconciliation to resume. -/
theorem enumeratesAll_iff (inp : CycleInput) (db : Option Db) :
    EnumeratesAll inp db ↔ ∀ lib ∈ inp.active, ¬Resumes inp (opened db).rows lib.zoneName := by
  constructor
  · intro h lib hlib hres
    cases db with
    | none => exact absurd hres.pending (by simp [opened])
    | some db =>
        have hfull := (h _ _ _ _ (runResetSyncToken_clean db) (by decide) Env.clean none _ _ rfl
          lib hlib).1
        have hres' := (resumes_afterWrites inp db lib.zoneName).mpr hres
        have hcandidate := (@runCycle_resumes { inp with shutdown := none } _ _ _
          (afterWrites_syncToken db lib.zoneName) ⟨hres'.refresh, hres'.notDry, hres'.database,
            hres'.drifted, hres'.pending, hres'.candidate⟩ rfl hlib rfl).snd
          (s := ⟨(afterWrites db 3).rows, 0, []⟩) ⟨rfl, rfl⟩
        exact absurd (hfull _ hcandidate) (by decide)
  · intro h c fault outcome left hreset hout env shutdown result w hrun lib hlib
    obtain ⟨hactive, hresumes⟩ := reset_rows hreset hout inp lib.zoneName
    have hcycle := @runCycle_full env { inp with shutdown := shutdown } _ _ hactive
      (fun hres => h lib hlib (hresumes ⟨hres.refresh, hres.notDry, hres.database, hres.drifted,
        hres.pending, hres.candidate⟩))
    cases result with
    | ok r =>
        have hend := hcycle.ok ⟨rfl, rfl⟩ hrun
        refine ⟨hend.1, fun r' hr hshut hexp => ?_⟩
        cases hr
        exact hend.2 hshut hexp lib hlib rfl
    | error e => exact ⟨hcycle.error ⟨rfl, rfl⟩ hrun, fun r hr => by contradiction⟩

/-! ## the pre-checks -/

/-- No pre-check after the command, up to the first cycle that stores a database token, skips a
zone whose active token the command had cleared. -/
def SkipsNothing (serde : Serde) (libraryStates : List LibraryState) (scope : DbPrecheckScope)
    (db : Option Db) : Prop :=
  ∀ c fault result left, runResetSyncToken c fault db = (result, left) →
    ∀ wakeUps, ∀ p ∈ prechecks serde libraryStates scope wakeUps (opened left),
      ∀ lib ∈ libraryStates, (opened db).rows (syncTokenKey lib.zoneName) ≠ none →
        (opened left).rows (syncTokenKey lib.zoneName) = none →
        p.shouldSyncZone lib.zoneName = true

/-- The pre-check goes by a stored token. -/
def Vouched (serde : Serde) (scope : DbPrecheckScope) (db : Db) : Prop :=
  ∃ row, db.scopedTokens scope.key = some row ∧ (nonBlank (some row.token)).isSome = true ∧
    answersFor serde scope row = true

theorem bootstrap_syncs (env : PrecheckEnv) (zone : String) :
    (bootstrap env).shouldSyncZone zone = true := by
  unfold bootstrap
  cases env.changesDatabase none with
  | none => rfl
  | some response =>
      by_cases hmore : (!response.moreComing) = true
      · simp only [if_pos hmore]
        rfl
      · simp only [if_neg hmore]
        rfl

variable {serde : Serde} {libraryStates : List LibraryState} {scope : DbPrecheckScope}
  {lib : LibraryState}

/-- Without such a token every zone is synced, and none is stored. -/
theorem checkChangesDatabase_unvouched (env : PrecheckEnv) {db : Db}
    (hlib : lib ∈ libraryStates) (h : ¬Vouched serde scope db) :
    (checkChangesDatabase serde env libraryStates scope db).1.shouldSyncZone lib.zoneName = true ∧
      (checkChangesDatabase serde env libraryStates scope db).2 = db := by
  unfold checkChangesDatabase
  rw [if_neg (by simpa using List.ne_nil_of_mem hlib)]
  by_cases hfails : env.readFails = true
  · rw [if_pos hfails]
    exact ⟨rfl, rfl⟩
  rw [if_neg hfails]
  cases hrow : (db.scopedTokens scope.key).filter
      (fun row => (nonBlank (some row.token)).isSome) with
  | none => exact ⟨bootstrap_syncs env _, rfl⟩
  | some row =>
      obtain ⟨hstored, htoken⟩ := Option.filter_eq_some_iff.mp hrow
      have hno : ¬answersFor serde scope row = true := fun hans => h ⟨row, hstored, htoken, hans⟩
      simp only [if_neg hno]
      exact ⟨rfl, trivial⟩

theorem prechecks_unvouched (hlib : lib ∈ libraryStates) (wakeUps : List WakeUp) (db : Db)
    (h : ¬Vouched serde scope db) :
    ∀ p ∈ prechecks serde libraryStates scope wakeUps db, p.shouldSyncZone lib.zoneName = true := by
  induction wakeUps generalizing db with
  | nil => exact fun p hp => absurd hp List.not_mem_nil
  | cons wake rest ih =>
      obtain ⟨hsync, hdb⟩ := checkChangesDatabase_unvouched wake.env hlib h
      intro p hp
      simp only [prechecks, hdb] at hp
      rcases List.mem_cons.mp hp with rfl | hp
      · exact hsync
      · exact ih { db with rows := wake.cycle db.rows } h p hp

theorem prechecks_vouched (db : Db) (hlib : lib ∈ libraryStates) (h : Vouched serde scope db) :
    prechecks serde libraryStates scope [⟨⟨false, false, fun _ => some ⟨"", false, []⟩⟩, id⟩] db =
      [.skipAll] := by
  obtain ⟨row, hstored, htoken, hans⟩ := h
  have hfilter : (db.scopedTokens scope.key).filter
      (fun row => (nonBlank (some row.token)).isSome) = some row :=
    Option.filter_eq_some_iff.mpr ⟨hstored, htoken⟩
  have hcheck : checkChangesDatabase serde ⟨false, false, fun _ => some ⟨"", false, []⟩⟩
      libraryStates scope db = (.skipAll, db) := by
    unfold checkChangesDatabase
    rw [if_neg (by simpa using List.ne_nil_of_mem hlib), if_neg Bool.false_ne_true, hfilter]
    simp only [if_pos hans]
    rfl
  rw [prechecks, hcheck]
  rfl

theorem afterWrites_early (db : Db) {k : Nat} (hk : k < 2) (zone : String) :
    (afterWrites db k).rows (syncTokenKey zone) = db.rows (syncTokenKey zone) := by
  have hcases : k = 0 ∨ k = 1 := by omega
  rcases hcases with rfl | rfl
  · rfl
  · have hne : syncTokenKey zone ≠ "db_sync_token" :=
      ne_of_keyHead (keyHead_syncTokenKey zone) (by decide : keyHead _ = some 'd') (by decide)
    exact @set_of_ne db.rows "db_sync_token" "" _ hne

/-- **When no pre-check skips a cleared zone**: when no stored token answers for the scope, or no
selected zone had a token to clear. -/
theorem skipsNothing_iff (serde : Serde) (libraryStates : List LibraryState)
    (scope : DbPrecheckScope) (db : Option Db) :
    SkipsNothing serde libraryStates scope db ↔
      ¬(Vouched serde scope (opened db) ∧
        ∃ lib ∈ libraryStates, (opened db).rows (syncTokenKey lib.zoneName) ≠ none) := by
  constructor
  · rintro h ⟨hvouched, lib, hlib, htoken⟩
    cases db with
    | none => exact htoken rfl
    | some db =>
        have hcleared := afterWrites_syncToken db lib.zoneName
        have hskips := prechecks_vouched (afterWrites db 2) hlib hvouched
        have hsync := h _ _ _ _ (runResetSyncToken_stopped db) _ .skipAll
          (hskips ▸ List.mem_singleton_self _) lib hlib htoken hcleared
        exact absurd hsync Bool.false_ne_true
  · intro h c fault result left hreset wakeUps p hp lib hlib htoken hcleared
    cases db with
    | none => exact absurd rfl htoken
    | some db =>
        have hleft : Left db left := by
          have hsnd :=
            ((runResetSyncToken_triple c fault db).weaken_post (fun _ _ h => h.1)).snd rfl
          rwa [hreset] at hsnd
        obtain ⟨k, hk, rfl⟩ := hleft
        have hlate : k = 2 ∨ k = 3 := by
          have hnot : ¬k < 2 := fun hearly => htoken ((afterWrites_early db hearly _).symm.trans
            hcleared)
          omega
        have hunvouched : ¬Vouched serde scope (afterWrites db k) := by
          rcases hlate with rfl | rfl
          · exact fun hv => h ⟨hv, lib, hlib, htoken⟩
          · rintro ⟨row, hstored, -⟩
            contradiction
        exact prechecks_unvouched hlib wakeUps _ hunvouched p hp

/-! ## the command as a whole -/

/-- **When a reset does what it says.**  The next cycle enumerates every selected library in
full and, wherever the command stops, no pre-check skips a zone it had cleared, exactly when no
selected library has a candidate of a reconciliation in progress for this configuration, and
no stored database token answers for the scope while a selected zone has an active token. -/
theorem runResetSyncToken_iff (serde : Serde) (scope : DbPrecheckScope) (inp : CycleInput)
    (db : Option Db) :
    EnumeratesAll inp db ∧ SkipsNothing serde inp.libraries scope db ↔
      (∀ lib ∈ inp.active, ¬Resumes inp (opened db).rows lib.zoneName) ∧
      ¬(Vouched serde scope (opened db) ∧
        ∃ lib ∈ inp.libraries, (opened db).rows (syncTokenKey lib.zoneName) ≠ none) := by
  rw [enumeratesAll_iff, skipsNothing_iff]

/-! ### a reconciliation for the filters that are in force now -/

def quiet : CycleInput where
  config := ⟨false, false, true, "new", "d", "l"⟩
  libraries := [⟨"PrimarySync", ["All"], false⟩]
  hasStateDb := true
  shutdown := none

def quietScope : DbPrecheckScope :=
  ⟨⟨"icloud", "a@example.com", 1, "s"⟩, "[\"PrimarySync\"]", "{}"⟩

/-- Its zone is through, and the watch has a database token. -/
def reconciling : Db where
  rows key :=
    if key = enumConfigHashKey then some "old"
    else if key = pendingEnumConfigHashKey then some "new"
    else if key = pendingZoneTokenKey "new" "PrimarySync" then some "t1"
    else if key = syncTokenKey "PrimarySync" then some "t0"
    else none
  scopedTokens _ := some ⟨quietScope.selectedZonesJson, quietScope.scopeJson, "d0"⟩

/-- A staged candidate survives the command: the cycle goes on from it, or skips the zone. -/
theorem reset_goes_on :
    ¬EnumeratesAll quiet (some reconciling) ∧
      ¬SkipsNothing ⟨fun _ => true, fun _ => true⟩ quiet.libraries quietScope
        (some reconciling) := by
  have hlib : ⟨"PrimarySync", ["All"], false⟩ ∈ quiet.libraries := List.mem_singleton_self _
  constructor
  · rw [enumeratesAll_iff]
    intro h
    exact h _ (List.mem_singleton_self _) ⟨rfl, rfl, rfl, ⟨"old", rfl, by decide⟩, rfl, by decide⟩
  · rw [skipsNothing_iff]
    refine fun h => h ⟨⟨_, rfl, by decide, by decide⟩, _, hlib, by decide⟩

end Kei.Reset
