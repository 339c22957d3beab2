import Kei.Lib.Table
import Kei.StateDb

/-!
# Kei.StateDb.Memberships

The album memberships of the state database: containers, the snapshots of a
container, and one row for each asset in a container.

A snapshot is a generation of its container.  A row carries the generation
that recorded it last, and `0` when only a relation delta has.
-/

namespace Kei.StateDb

/-! ## rows -/

inductive SnapshotStatus where
  | running
  | complete
  | invalidated
  deriving DecidableEq

structure AlbumContainer where
  library : String
  containerId : String
  albumName : String
  passKind : String
  isDeleted : Bool
  updatedAt : Int
  deriving DecidableEq

structure AlbumSnapshot where
  library : String
  containerId : String
  generation : Nat
  status : SnapshotStatus
  enumConfigHash : Option String
  startedAt : Int
  completedAt : Option Int
  deriving DecidableEq

structure AlbumMembership where
  library : String
  assetRecordName : String
  masterRecordName : Option String
  containerId : String
  generation : Nat
  isDeleted : Bool
  source : String
  updatedAt : Int
  deriving DecidableEq

/-- The primary keys. -/
abbrev AlbumContainer.key (c : AlbumContainer) : String × String := (c.library, c.containerId)

abbrev AlbumSnapshot.key (s : AlbumSnapshot) : String × String × Nat :=
  (s.library, s.containerId, s.generation)

abbrev AlbumMembership.key (m : AlbumMembership) : String × String × String :=
  (m.library, m.assetRecordName, m.containerId)

/-! What the updates leave alone. -/

theorem AlbumSnapshot.key_completed (now : Int) (s : AlbumSnapshot) :
    { s with status := .complete, completedAt := some now : AlbumSnapshot }.key = s.key := rfl

theorem AlbumMembership.key_deleted (now : Int) (m : AlbumMembership) :
    { m with isDeleted := true, updatedAt := now : AlbumMembership }.key = m.key := rfl

theorem AlbumMembership.key_recorded (masterRecordName : Option String) (generation : Nat)
    (source : String) (now : Int) (m : AlbumMembership) :
    { m with
      masterRecordName := masterRecordName.or m.masterRecordName, generation := generation,
      isDeleted := false, source := source, updatedAt := now : AlbumMembership }.key = m.key := rfl

structure MembershipDb where
  albumContainers : Table AlbumContainer (String × String) AlbumContainer.key
  albumMembershipSnapshots : Table AlbumSnapshot (String × String × Nat) AlbumSnapshot.key
  assetAlbumMemberships : Table AlbumMembership (String × String × String) AlbumMembership.key

def MembershipDb.empty : MembershipDb := ⟨.empty, .empty, .empty⟩

/-! ## containers -/

def upsertAlbumContainer (library containerId albumName passKind : String) (now : Int)
    (db : MembershipDb) : MembershipDb :=
  { db with
    albumContainers := db.albumContainers.upsert
      { library := library, containerId := containerId, albumName := albumName,
        passKind := passKind, isDeleted := false, updatedAt := now }
      (fun c => { c with
        albumName := albumName, passKind := passKind, isDeleted := false, updatedAt := now })
      (fun _ => rfl) }

def markAlbumContainerDeleted (library containerId : String) (now : Int) (db : MembershipDb) :
    MembershipDb :=
  { db with
    albumContainers := db.albumContainers.update
      (fun c => c.library = library && c.containerId = containerId)
      (fun c => { c with isDeleted := true, updatedAt := now }) (fun _ => rfl) }

def albumContainerKnown (library containerId : String) (db : MembershipDb) : Bool :=
  (db.albumContainers.get? (library, containerId)).isSome

/-! ## snapshots -/

def AlbumSnapshot.ofContainer (library containerId : String) (s : AlbumSnapshot) : Bool :=
  s.library = library && s.containerId = containerId

/-- `COALESCE(MAX(generation), 0)`. -/
def maxGeneration (library containerId : String) (db : MembershipDb) : Nat :=
  ((db.albumMembershipSnapshots.rows.filter (AlbumSnapshot.ofContainer library containerId)).map
    AlbumSnapshot.generation).max?.getD 0

variable {db : MembershipDb}

theorem le_maxGeneration {s : AlbumSnapshot} (h : s ∈ db.albumMembershipSnapshots.rows) :
    s.generation ≤ maxGeneration s.library s.containerId db := by
  have hof : s.ofContainer s.library s.containerId = true := by simp [AlbumSnapshot.ofContainer]
  exact List.le_max?_getD_of_mem (List.mem_map_of_mem (List.mem_filter.mpr ⟨h, hof⟩))

theorem nextGeneration_fresh (library containerId : String) (db : MembershipDb)
    (s : AlbumSnapshot)
    (hs : s.key = (library, containerId, maxGeneration library containerId db + 1)) :
    s.key ∉ db.albumMembershipSnapshots.rows.map AlbumSnapshot.key := by
  intro hmem
  obtain ⟨s', hs', hkey⟩ := List.mem_map.mp hmem
  have hle := le_maxGeneration hs'
  rw [hs] at hkey
  simp only [AlbumSnapshot.key, Prod.mk.injEq] at hkey
  obtain ⟨rfl, rfl, hgeneration⟩ := hkey
  omega

/-- The new generation is running. -/
def startAlbumMembershipSnapshot (library containerId : String) (enumConfigHash : Option String)
    (now : Int) (db : MembershipDb) : Nat × MembershipDb :=
  let generation := maxGeneration library containerId db + 1
  (generation, { db with
    albumMembershipSnapshots := db.albumMembershipSnapshots.insert
      { library := library, containerId := containerId, generation := generation,
        status := .running, enumConfigHash := enumConfigHash, startedAt := now,
        completedAt := none }
      (nextGeneration_fresh library containerId db _ rfl) })

def MembershipDb.isRunning (library containerId : String) (generation : Nat)
    (db : MembershipDb) : Bool :=
  (db.albumMembershipSnapshots.get? (library, containerId, generation)).any
    (fun s => s.status = .running)

def noRunningSnapshot (operation library containerId : String) (generation : Nat) : StateError :=
  .invariant operation
    s!"no running snapshot for library {library} container {containerId} generation {generation}"

/-- Records the asset in the running generation. -/
def addAlbumMembershipToSnapshot (library containerId : String) (generation : Nat)
    (assetRecordName : String) (masterRecordName : Option String) (source : String) (now : Int)
    (db : MembershipDb) : Except StateError MembershipDb :=
  if db.isRunning library containerId generation then
    .ok { db with
      assetAlbumMemberships := db.assetAlbumMemberships.upsert
        { library := library, assetRecordName := assetRecordName,
          masterRecordName := masterRecordName, containerId := containerId,
          generation := generation, isDeleted := false, source := source, updatedAt := now }
        (fun m => { m with
          masterRecordName := masterRecordName.or m.masterRecordName, generation := generation,
          isDeleted := false, source := source, updatedAt := now })
        (AlbumMembership.key_recorded masterRecordName generation source now) }
  else .error (noRunningSnapshot "add_album_membership_to_snapshot" library containerId generation)

def AlbumMembership.ofContainer (library containerId : String) (m : AlbumMembership) : Bool :=
  m.library = library && m.containerId = containerId

/-- The container has exactly what the generation recorded. -/
def completeAlbumMembershipSnapshot (library containerId : String) (generation : Nat) (now : Int)
    (db : MembershipDb) : Except StateError MembershipDb :=
  if db.isRunning library containerId generation then
    .ok { db with
      albumMembershipSnapshots := db.albumMembershipSnapshots.update
        (fun s => s.ofContainer library containerId && s.generation = generation &&
          s.status = .running)
        (fun s => { s with status := .complete, completedAt := some now })
        (AlbumSnapshot.key_completed now),
      assetAlbumMemberships := db.assetAlbumMemberships.update
        (fun m => m.ofContainer library containerId && m.generation ≠ generation && !m.isDeleted)
        (fun m => { m with isDeleted := true, updatedAt := now })
        (AlbumMembership.key_deleted now) }
  else
    .error (noRunningSnapshot "complete_album_membership_snapshot" library containerId generation)

def invalidateAlbumMembershipSnapshot (library containerId : String) (now : Int)
    (db : MembershipDb) : MembershipDb :=
  { db with
    albumMembershipSnapshots := db.albumMembershipSnapshots.update
      (fun s => s.ofContainer library containerId &&
        (s.status = .running || s.status = .complete))
      (fun s => { s with
        status := .invalidated, completedAt := s.completedAt.or (some now) })
      (fun _ => rfl) }

/-! ## relation deltas

They say whether the container is known. -/

/-- A new row has no generation, and a row that is there keeps its own. -/
def upsertAlbumMembershipDelta (library containerId assetRecordName : String)
    (masterRecordName : Option String) (source : String) (now : Int) (db : MembershipDb) :
    Bool × MembershipDb :=
  (albumContainerKnown library containerId db, { db with
    assetAlbumMemberships := db.assetAlbumMemberships.upsert
      { library := library, assetRecordName := assetRecordName,
        masterRecordName := masterRecordName, containerId := containerId, generation := 0,
        isDeleted := false, source := source, updatedAt := now }
      (fun m => { m with
        masterRecordName := masterRecordName.or m.masterRecordName, isDeleted := false,
        source := source, updatedAt := now })
      (fun _ => rfl) })

def markAlbumMembershipDeleted (library containerId assetRecordName : String) (now : Int)
    (db : MembershipDb) : Bool × MembershipDb :=
  (albumContainerKnown library containerId db, { db with
    assetAlbumMemberships := db.assetAlbumMemberships.update
      (fun m => m.ofContainer library containerId && m.assetRecordName = assetRecordName)
      (fun m => { m with isDeleted := true, updatedAt := now }) (AlbumMembership.key_deleted now) })

theorem AlbumMembership.of_get? {library asset containerId : String} {m : AlbumMembership}
    (h : db.assetAlbumMemberships.get? (library, asset, containerId) = some m) :
    m.library = library ∧ m.assetRecordName = asset ∧ m.containerId = containerId := by
  simpa [AlbumMembership.key] using Table.get?_key h

theorem get?_markDeleted {l c a library asset containerId : String} {now : Int} :
    (markAlbumMembershipDeleted l c a now db).2.assetAlbumMemberships.get?
        (library, asset, containerId) =
      (db.assetAlbumMemberships.get? (library, asset, containerId)).map (fun m =>
        if l = library ∧ c = containerId ∧ a = asset then
          { m with isDeleted := true, updatedAt := now }
        else m) := by
  rw [markAlbumMembershipDeleted, Table.get?_update]
  refine Option.map_congr fun m hm => ?_
  obtain ⟨rfl, rfl, rfl⟩ := AlbumMembership.of_get? hm
  simp only [AlbumMembership.ofContainer, Bool.and_eq_true, decide_eq_true_eq, and_assoc,
    @eq_comm _ l, @eq_comm _ c, @eq_comm _ a]

/-! ## queries -/

/-- The asset is a live member of the container. -/
def MembershipDb.isLive (library containerId assetRecordName : String) (db : MembershipDb) :
    Bool :=
  (db.assetAlbumMemberships.get? (library, assetRecordName, containerId)).any
    (fun m => !m.isDeleted)

def getLiveSelectedAlbumMembershipsForAsset (library assetRecordName : String)
    (selectedContainerIds : List String) (db : MembershipDb) : List AlbumMembership :=
  db.assetAlbumMemberships.rows.filter (fun m =>
    m.library = library && m.assetRecordName = assetRecordName && !m.isDeleted &&
      selectedContainerIds.contains m.containerId)

theorem exists_mem_getLiveSelected {library assetRecordName containerId : String}
    {selectedContainerIds : List String} {db : MembershipDb} :
    (∃ m ∈ getLiveSelectedAlbumMembershipsForAsset library assetRecordName selectedContainerIds db,
      m.containerId = containerId) ↔
      containerId ∈ selectedContainerIds ∧
        db.isLive library containerId assetRecordName = true := by
  rw [MembershipDb.isLive, Option.any_eq_true]
  constructor
  · rintro ⟨m, hm, rfl⟩
    obtain ⟨hrow, hfilter⟩ := List.mem_filter.mp hm
    simp only [Bool.and_eq_true, decide_eq_true_eq, List.contains_iff_mem] at hfilter
    obtain ⟨⟨⟨hlibrary, hasset⟩, hlive⟩, hselected⟩ := hfilter
    have hkey : m.key = (library, assetRecordName, m.containerId) := by
      rw [AlbumMembership.key, hlibrary, hasset]
    exact ⟨hselected, m, Table.get?_eq_some.mpr ⟨hrow, hkey⟩, hlive⟩
  · rintro ⟨hselected, m, hget, hlive⟩
    obtain ⟨hlibrary, hasset, hcontainer⟩ := AlbumMembership.of_get? hget
    refine ⟨m, List.mem_filter.mpr ⟨Table.mem_of_get? hget, ?_⟩, hcontainer⟩
    rw [← hcontainer] at hselected
    simpa [hlibrary, hasset, hselected] using hlive

/-! ## operations -/

inductive MembershipOp where
  | upsertAlbumContainer (library containerId albumName passKind : String) (now : Int)
  | markAlbumContainerDeleted (library containerId : String) (now : Int)
  | startAlbumMembershipSnapshot (library containerId : String) (enumConfigHash : Option String)
      (now : Int)
  | addAlbumMembershipToSnapshot (library containerId : String) (generation : Nat)
      (assetRecordName : String) (masterRecordName : Option String) (source : String) (now : Int)
  | upsertAlbumMembershipDelta (library containerId assetRecordName : String)
      (masterRecordName : Option String) (source : String) (now : Int)
  | markAlbumMembershipDeleted (library containerId assetRecordName : String) (now : Int)
  | completeAlbumMembershipSnapshot (library containerId : String) (generation : Nat) (now : Int)
  | invalidateAlbumMembershipSnapshot (library containerId : String) (now : Int)

/-- The database after an operation that succeeds. -/
def MembershipOp.run (db : MembershipDb) : MembershipOp → Except StateError MembershipDb
  | .upsertAlbumContainer library containerId albumName passKind now =>
      .ok (StateDb.upsertAlbumContainer library containerId albumName passKind now db)
  | .markAlbumContainerDeleted library containerId now =>
      .ok (StateDb.markAlbumContainerDeleted library containerId now db)
  | .startAlbumMembershipSnapshot library containerId enumConfigHash now =>
      .ok (StateDb.startAlbumMembershipSnapshot library containerId enumConfigHash now db).2
  | .addAlbumMembershipToSnapshot library containerId generation assetRecordName
      masterRecordName source now =>
      StateDb.addAlbumMembershipToSnapshot library containerId generation assetRecordName
        masterRecordName source now db
  | .upsertAlbumMembershipDelta library containerId assetRecordName masterRecordName source now =>
      .ok (StateDb.upsertAlbumMembershipDelta library containerId assetRecordName
        masterRecordName source now db).2
  | .markAlbumMembershipDeleted library containerId assetRecordName now =>
      .ok (StateDb.markAlbumMembershipDeleted library containerId assetRecordName now db).2
  | .completeAlbumMembershipSnapshot library containerId generation now =>
      StateDb.completeAlbumMembershipSnapshot library containerId generation now db
  | .invalidateAlbumMembershipSnapshot library containerId now =>
      .ok (StateDb.invalidateAlbumMembershipSnapshot library containerId now db)

/-- An operation that fails leaves the database. -/
def MembershipOp.apply (db : MembershipDb) (op : MembershipOp) : MembershipDb :=
  match op.run db with
  | .ok db => db
  | .error _ => db

def runMembershipOps (db : MembershipDb) (ops : List MembershipOp) : MembershipDb :=
  ops.foldl MembershipOp.apply db

end Kei.StateDb
