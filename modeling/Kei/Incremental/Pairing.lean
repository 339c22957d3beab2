import Kei.Incremental.Routes
import Kei.Library.Lookups

/-!
# Kei.Incremental.Pairing

What becomes of the asset-only records of a delta.

A created asset that came without its master gets its asset from the provider,
or is gone there, or holds the token back.  The provider is asked for the
masters that are not known, and then for the pairs; each name has one answer.
That answer goes to one event of the name, and where a name has several of them
the others are left without their asset.
-/

namespace Kei.Incremental

open Accum Changes

/-! ## the two lookups -/

def RecordResolution.ofLookup : Lookup.RecordResolution → RecordResolution
  | .present photo => .present photo
  | .assetPresent masterRecordName => .assetPresent masterRecordName
  | .masterPresent => .masterPresent
  | .deleted _ masterFamily => .deleted masterFamily
  | .unknown => .unknown
  | .transientFailure _ => .transientFailure

/-- The provider behind the two lookups, and whether the writes that follow go well. -/
structure RecordLookups where
  host : Lookup.Host
  identities : Lookup.Provider
  pairs : Lookup.Provider
  identityRecorded : String → Bool
  pairRecorded : String → Bool

def resolvedOf (recorded : String → Bool)
    (result : Lookup.ProviderRecordId × Lookup.RecordResolution) : Resolved :=
  ⟨result.1, .ofLookup result.2, recorded result.1⟩

/-- The replies of a run whose lookups are `resolve_records`. -/
def Replies.withLookups (replies : Replies) (lookups : RecordLookups) : Replies :=
  { replies with
    resolveIdentities := fun names =>
      (Lookup.resolveRecords lookups.host lookups.identities
        (names.map .assetOnly)).results.map (resolvedOf lookups.identityRecorded),
    resolvePairs := fun pairs =>
      let batch := Lookup.resolveRecords lookups.host lookups.pairs
        (pairs.map (fun pair => .paired pair.1 pair.2 pair.1))
      (batch.results.map (resolvedOf lookups.pairRecorded), batch.complete) }

/-- The provider says whether the record is there or gone. -/
def RecordResolution.isSettled : RecordResolution → Bool
  | .present _ | .deleted _ => true
  | _ => false

/-- Each name that is asked for has one answer. -/
structure Replies.Answers (replies : Replies) : Prop where
  identities_nodup : ∀ names, ((replies.resolveIdentities names).map (·.stateId)).Nodup
  identities : ∀ names name,
    name ∈ (replies.resolveIdentities names).map (·.stateId) ↔ name ∈ names
  pairs_nodup : ∀ pairs, ((replies.resolvePairs pairs).1.map (·.stateId)).Nodup
  pairs : ∀ pairs name,
    name ∈ (replies.resolvePairs pairs).1.map (·.stateId) ↔ name ∈ pairs.map (·.1)
  complete : ∀ pairs, (replies.resolvePairs pairs).2 =
    (replies.resolvePairs pairs).1.all (·.resolution.isSettled)

theorem stateId_resolvedOf (recorded : String → Bool)
    (results : List (Lookup.ProviderRecordId × Lookup.RecordResolution)) :
    (results.map (resolvedOf recorded)).map (·.stateId) = results.map (·.1) := by
  rw [List.map_map]
  rfl

/-- **`resolve_records` answers for each name once.** -/
theorem withLookups_answers (replies : Replies) (lookups : RecordLookups) :
    (replies.withLookups lookups).Answers where
  identities_nodup names := by
    rw [Replies.withLookups, stateId_resolvedOf]
    exact (Lookup.keeps_resolveRecords _ lookups.host lookups.identities _).nodup
  identities names name := by
    rw [Replies.withLookups, stateId_resolvedOf, Lookup.resolveRecords,
      (Lookup.keeps_resolveRecords _ lookups.host lookups.identities _).keys name,
      Lookup.map_individualResolutions _ _ (by decide), List.map_map]
    simp [Function.comp_def, Lookup.RecordLookupRequest.assetOnly]
  pairs_nodup pairs := by
    simp only [Replies.withLookups]
    rw [stateId_resolvedOf]
    exact (Lookup.keeps_resolveRecords _ lookups.host lookups.pairs _).nodup
  pairs pairs name := by
    simp only [Replies.withLookups]
    rw [stateId_resolvedOf, Lookup.resolveRecords,
      (Lookup.keeps_resolveRecords _ lookups.host lookups.pairs _).keys name,
      Lookup.map_individualResolutions _ _ (by decide), List.map_map]
    simp [Function.comp_def, Lookup.RecordLookupRequest.paired]
  complete pairs := by
    simp only [Replies.withLookups, Lookup.resolveRecords, Lookup.resolveRecordsIn, List.all_map]
    congr 1
    funext result
    obtain ⟨stateId, resolution⟩ := result
    cases resolution <;> rfl

/-! ## one call -/

/-- What the function is called with. -/
structure Pairing where
  config : DownloadConfig
  hasPass : Bool
  replies : Replies
  store : Store
  events : List Delivered

/-- The record and its master, where the delta or the store has it. -/
def direct (config : DownloadConfig) (store : Store) (entry : Delivered × Nat) : Option Pending :=
  if entry.1.isUnpairedCreated then
    match unpairedMaster config store entry.1 with
    | .ok (some master) => some ⟨entry.2, entry.1.recordName, master⟩
    | _ => none
  else none

/-- The record, where neither has its master. -/
def orphan (config : DownloadConfig) (store : Store) (entry : Delivered × Nat) :
    Option (String × Nat) :=
  if entry.1.isUnpairedCreated then
    match unpairedMaster config store entry.1 with
    | .ok none => some (entry.1.recordName, entry.2)
    | _ => none
  else none

/-- The records that get their master by an answer. -/
def adopted (orphans : List (String × Nat)) (resolved : Resolved) : List Pending :=
  match resolved.resolution with
  | .assetPresent master =>
      (orphans.filter (fun u => u.1 = resolved.stateId)).map
        (fun u => ⟨u.2, resolved.stateId, master⟩)
  | _ => []

namespace Pairing

variable (c : Pairing)

def result : (Store × List Delivered) × List Issue :=
  hydrateUnpairedCreatedAssetDeltas c.config c.hasPass c.replies c.store c.events

def directs : List Pending := c.events.zipIdx.filterMap (direct c.config c.store)

def orphans : List (String × Nat) := c.events.zipIdx.filterMap (orphan c.config c.store)

/-- The answers for the records without a known master. -/
def identityAnswers : List Resolved :=
  c.replies.resolveIdentities ((c.orphans.map (·.1)).dedup)

/-- The records that are asked for with their masters, in order. -/
def asked : List Pending := c.directs ++ c.identityAnswers.flatMap (adopted c.orphans)

/-- The answers for them. -/
def pairAnswers : List Resolved :=
  (c.replies.resolvePairs (c.asked.map (fun p => (p.recordName, p.masterRecordName)))).1

end Pairing

/-- The answer gives the master, and it is stored, or says that the asset is gone. -/
def Resolved.settlesIdentity (config : DownloadConfig) (resolved : Resolved) : Bool :=
  match resolved.resolution with
  | .assetPresent _ => !config.hasStateDb || resolved.recorded
  | .deleted masterFamily => !masterFamily
  | _ => false

/-- The answer gives the asset of that name or says that it is gone, and this is stored. -/
def Resolved.settlesPair (config : DownloadConfig) (resolved : Resolved) : Bool :=
  match resolved.resolution with
  | .present asset =>
      asset.assetRecordName = resolved.stateId && (!config.hasStateDb || resolved.recorded)
  | .deleted _ => !config.hasStateDb || resolved.recorded
  | _ => false

/-! ## masters -/

theorem accum_collectUnpaired (config : DownloadConfig) (store : Store)
    (entries : List (Delivered × Nat)) (unpaired : Unpaired) :
    (accum (collectUnpaired config store) unpaired entries).1 =
        ⟨unpaired.pending ++ entries.filterMap (direct config store),
          unpaired.unresolved ++ entries.filterMap (orphan config store)⟩ ∧
      ((accum (collectUnpaired config store) unpaired entries).2 = [] ↔
        ∀ entry ∈ entries, entry.1.isUnpairedCreated = true →
          ∃ master, unpairedMaster config store entry.1 = .ok master) := by
  induction entries generalizing unpaired with
  | nil => simp
  | cons entry entries ih =>
      rw [accum_cons_fst, accum_cons_snd]
      obtain ⟨hstate, hquiet⟩ := ih (collectUnpaired config store unpaired entry).1
      rw [hstate, List.append_eq_nil_iff, hquiet]
      cases hunpaired : entry.1.isUnpairedCreated with
      | false => simp [collectUnpaired, direct, orphan, hunpaired]
      | true =>
          cases hmaster : unpairedMaster config store entry.1 with
          | error issue => simp [collectUnpaired, direct, orphan, hunpaired, hmaster]
          | ok master =>
              cases master with
              | none | some => simp [collectUnpaired, direct, orphan, hunpaired, hmaster]

theorem resolveIdentity_spec (config : DownloadConfig) (store : Store) (unpaired : Unpaired)
    (resolved : Resolved) :
    (resolveIdentity config (store, unpaired) resolved).1.2 =
        ⟨unpaired.pending ++ adopted unpaired.unresolved resolved,
          unpaired.unresolved.filter (fun u => u.1 ≠ resolved.stateId)⟩ ∧
      ((resolveIdentity config (store, unpaired) resolved).2 = [] ↔
        (∃ u ∈ unpaired.unresolved, u.1 = resolved.stateId) ∧
          resolved.settlesIdentity config = true) := by
  by_cases hknown : ∃ u ∈ unpaired.unresolved, u.1 = resolved.stateId
  · have hindices : ((unpaired.unresolved.filter
        (fun u => u.1 = resolved.stateId)).map (·.2)).isEmpty = false := by
      simpa [List.isEmpty_eq_false_iff] using hknown
    unfold resolveIdentity
    simp only [hindices, hknown, true_and, Bool.false_eq_true, if_false]
    cases hresolution : resolved.resolution with
    | assetPresent master =>
        cases hdb : config.hasStateDb with
        | true | false =>
            simp [adopted, hresolution, Resolved.settlesIdentity, persistAssetMasterMapping, hdb,
              Function.comp_def]
    | deleted masterFamily =>
        cases masterFamily <;> simp [adopted, hresolution, Resolved.settlesIdentity]
    | _ => simp [adopted, hresolution, Resolved.settlesIdentity]
  · have hother : ∀ u ∈ unpaired.unresolved, u.1 ≠ resolved.stateId :=
      fun u hu hname => hknown ⟨u, hu, hname⟩
    have hnone : unpaired.unresolved.filter (fun u => u.1 = resolved.stateId) = [] := by
      rw [List.filter_eq_nil_iff]
      intro u hu
      simpa using hother u hu
    have hall : unpaired.unresolved.filter (fun u => u.1 ≠ resolved.stateId) =
        unpaired.unresolved := by
      rw [List.filter_eq_self]
      intro u hu
      simpa using hother u hu
    have hadopted : adopted unpaired.unresolved resolved = [] := by
      unfold adopted
      cases resolved.resolution <;> simp [hnone]
    unfold resolveIdentity
    simp only [hnone, hknown, hadopted, hall]
    simp

theorem adopted_filter {orphans : List (String × Nat)} {resolved other : Resolved}
    (h : other.stateId ≠ resolved.stateId) :
    adopted (orphans.filter (fun u => u.1 ≠ resolved.stateId)) other = adopted orphans other := by
  unfold adopted
  cases other.resolution with
  | assetPresent master =>
      dsimp only
      rw [List.filter_filter]
      congr 1
      refine List.filter_congr (fun u _ => ?_)
      by_cases hname : u.1 = other.stateId
      · simp [hname, h]
      · simp [hname]
  | _ => rfl

theorem accum_resolveIdentity (config : DownloadConfig) (store : Store) (unpaired : Unpaired)
    {answers : List Resolved} (hnodup : (answers.map (·.stateId)).Nodup) :
    (accum (resolveIdentity config) (store, unpaired) answers).1.2 =
        ⟨unpaired.pending ++ answers.flatMap (adopted unpaired.unresolved),
          unpaired.unresolved.filter (fun u => u.1 ∉ answers.map (·.stateId))⟩ ∧
      ((accum (resolveIdentity config) (store, unpaired) answers).2 = [] ↔
        ∀ r ∈ answers, (∃ u ∈ unpaired.unresolved, u.1 = r.stateId) ∧
          r.settlesIdentity config = true) := by
  induction answers generalizing store unpaired with
  | nil => simp
  | cons r answers ih =>
      obtain ⟨hfresh, hnodup⟩ := List.nodup_cons.mp hnodup
      have hother : ∀ r' ∈ answers, r'.stateId ≠ r.stateId := by
        intro r' hr' hsame
        exact hfresh (List.mem_map.mpr ⟨r', hr', hsame⟩)
      obtain ⟨hstate, hquiet⟩ := resolveIdentity_spec config store unpaired r
      rw [accum_cons_fst, accum_cons_snd, List.append_eq_nil_iff, hquiet]
      generalize resolveIdentity config (store, unpaired) r = step at hstate ⊢
      obtain ⟨⟨store', unpaired'⟩, issues⟩ := step
      have hstate : unpaired' = _ := hstate
      subst hstate
      obtain ⟨hrest, hquiet'⟩ := ih store' _ hnodup
      refine ⟨hrest.trans ?_, ?_⟩
      · have hadopted : answers.flatMap
            (adopted (unpaired.unresolved.filter (fun u => u.1 ≠ r.stateId))) =
              answers.flatMap (adopted unpaired.unresolved) :=
          List.flatMap_congr (fun r' hr' => adopted_filter (hother r' hr'))
        rw [hadopted, List.filter_filter, List.flatMap_cons, List.append_assoc]
        congr 1
        refine List.filter_congr (fun u _ => ?_)
        by_cases hname : u.1 = r.stateId
        · simp [hname]
        · simp [hname]
      · rw [hquiet', List.forall_mem_cons]
        refine and_congr_right (fun _ => forall₂_congr (fun r' hr' => ?_))
        have hne := hother r' hr'
        refine and_congr_left (fun _ => ?_)
        constructor
        · rintro ⟨u, hu, hname⟩
          exact ⟨u, List.mem_of_mem_filter hu, hname⟩
        · rintro ⟨u, hu, hname⟩
          exact ⟨u, by simp [hu, hname, hne], hname⟩

/-! ## pairs -/

/-- The record of a name that an answer goes to. -/
def lastOf (pending : List Pending) (name : String) : Option Pending :=
  (pending.filter (fun p => p.recordName = name)).getLast?

theorem lastOf_mem {pending : List Pending} {name : String} {p : Pending}
    (h : lastOf pending name = some p) : p ∈ pending ∧ p.recordName = name := by
  have hmem := List.mem_filter.mp (List.mem_of_getLast? h)
  exact ⟨hmem.1, of_decide_eq_true hmem.2⟩

theorem lastOf_isSome {pending : List Pending} {name : String} :
    (∃ p, lastOf pending name = some p) ↔ ∃ p ∈ pending, p.recordName = name := by
  constructor
  · rintro ⟨p, hp⟩
    exact ⟨p, lastOf_mem hp⟩
  · rintro ⟨p, hp, hname⟩
    have hne : pending.filter (fun p => p.recordName = name) ≠ [] :=
      List.ne_nil_of_mem (List.mem_filter.mpr ⟨hp, decide_eq_true hname⟩)
    exact ⟨_, List.getLast?_eq_some_getLast hne⟩

/-- The place and the asset that an answer puts there. -/
def placed (pending : List Pending) (resolved : Resolved) : Option (Nat × PhotoAsset) :=
  match lastOf pending resolved.stateId, resolved.resolution with
  | some p, .present asset =>
      if asset.assetRecordName = resolved.stateId then some (p.index, asset) else none
  | _, _ => none

def place (pending : List Pending) (events : List Delivered) (resolved : Resolved) :
    List Delivered :=
  match placed pending resolved with
  | some (index, asset) => setAsset events index asset
  | none => events

theorem placed_eq_some {pending : List Pending} {resolved : Resolved} {index : Nat}
    {asset : PhotoAsset} (h : placed pending resolved = some (index, asset)) :
    ∃ p, lastOf pending resolved.stateId = some p ∧ p.index = index ∧
      resolved.resolution = .present asset ∧ asset.assetRecordName = resolved.stateId := by
  unfold placed at h
  split at h
  · next p asset' hlast hresolution =>
      split at h
      · next hname =>
          cases h
          exact ⟨p, hlast, rfl, hresolution, hname⟩
      · contradiction
  · contradiction

section pairs

variable {raws events : List Delivered} {config : DownloadConfig} {pending : List Pending}

theorem persistAssetMapping_quiet (config : DownloadConfig) (asset : PhotoAsset) (recorded : Bool)
    (store : Store) :
    (persistAssetMappingForAsset config asset recorded store).2 = [] ↔
      (!config.hasStateDb || recorded) = true := by
  unfold persistAssetMappingForAsset persistAssetMasterMapping
  cases config.hasStateDb <;> simp

variable {answers : List Resolved}

theorem foldl_place_other {index : Nat}
    (h : ∀ r ∈ answers, ∀ asset, placed pending r ≠ some (index, asset)) :
    (answers.foldl (place pending) events)[index]? = events[index]? := by
  induction answers generalizing events with
  | nil => rfl
  | cons r answers ih =>
      rw [List.foldl_cons, ih (fun r' hr' => h r' (List.mem_cons_of_mem _ hr'))]
      unfold place
      split
      · next index' asset hplaced =>
          have hne : index' ≠ index := by
            rintro rfl
            exact h r List.mem_cons_self asset hplaced
          simp [setAsset, hne]
      · rfl

/-- The event of a place has an asset of that name. -/
def HasAssetAt (events : List Delivered) (index : Nat) (name : String) : Prop :=
  ∃ event, events[index]? = some event ∧ event.hasAsset name

theorem setAsset_hasAssetAt {index : Nat} (hlt : index < events.length) (asset : PhotoAsset) :
    HasAssetAt (setAsset events index asset) index asset.assetRecordName :=
  ⟨{ events[index] with asset := some asset },
    by simp [setAsset, List.getElem?_eq_getElem hlt], asset, rfl, rfl⟩

variable (hpending : ∀ p ∈ pending, NamedAt raws p.index p.recordName)
include hpending

/-- One answer, when the records of the delta have kept their names. -/
theorem resolvePair_spec (config : DownloadConfig) (h : List.Forall₂ Completed raws events)
    (store : Store) (resolved : Resolved) :
    (resolvePair config pending (store, events) resolved).1.2 = place pending events resolved ∧
      ((resolvePair config pending (store, events) resolved).2 = [] ↔
        (∃ p ∈ pending, p.recordName = resolved.stateId) ∧
          resolved.settlesPair config = true) := by
  have hlast : (pending.filter (fun p => p.recordName = resolved.stateId)).getLast? =
      lastOf pending resolved.stateId := rfl
  unfold resolvePair place placed
  rw [hlast, ← lastOf_isSome]
  cases hp : lastOf pending resolved.stateId with
  | none => simp
  | some p =>
      obtain ⟨hmem, hname⟩ := lastOf_mem hp
      obtain ⟨event, hevent, hrecord⟩ := recordName_at hpending h hmem
      have hstateId : event.recordName = resolved.stateId := hrecord.trans hname
      simp only [hevent, hstateId]
      cases hresolution : resolved.resolution with
      | present asset =>
          by_cases hasset : asset.assetRecordName = resolved.stateId
          · have hquiet := persistAssetMapping_quiet config asset resolved.recorded store
            simp [hasset, Resolved.settlesPair, hresolution, hquiet]
          · simp [hasset, Resolved.settlesPair, hresolution]
      | deleted masterFamily =>
          cases hdb : config.hasStateDb <;>
            simp [Resolved.settlesPair, hresolution, hdb]
      | _ => simp [Resolved.settlesPair, hresolution]

theorem place_completed (h : List.Forall₂ Completed raws events) (resolved : Resolved) :
    List.Forall₂ Completed raws (place pending events resolved) := by
  unfold place
  split
  · next index asset hplaced =>
      obtain ⟨p, hlast, rfl, -, hasset⟩ := placed_eq_some hplaced
      obtain ⟨hmem, hname⟩ := lastOf_mem hlast
      obtain ⟨raw, hraw, hunpaired, hrecord⟩ := hpending p hmem
      exact setAsset_completed h hraw hunpaired
        (hasset.trans (hname.symm.trans hrecord.symm))
  · exact h

theorem accum_resolvePair (config : DownloadConfig)
    (h : List.Forall₂ Completed raws events) (store : Store) (answers : List Resolved) :
    (accum (resolvePair config pending) (store, events) answers).1.2 =
        answers.foldl (place pending) events ∧
      ((accum (resolvePair config pending) (store, events) answers).2 = [] ↔
        ∀ r ∈ answers, (∃ p ∈ pending, p.recordName = r.stateId) ∧
          r.settlesPair config = true) := by
  induction answers generalizing events store with
  | nil => simp
  | cons r answers ih =>
      obtain ⟨hevents, hquiet⟩ := resolvePair_spec hpending config h store r
      rw [accum_cons_fst, accum_cons_snd, List.append_eq_nil_iff, hquiet]
      have hcompleted := place_completed hpending h r
      rw [← hevents] at hcompleted
      obtain ⟨hrest, hquiet'⟩ := ih hcompleted
        (resolvePair config pending (store, events) r).1.1
      refine ⟨?_, by rw [hquiet', List.forall_mem_cons]⟩
      rw [List.foldl_cons, ← hevents]
      exact hrest

theorem place_hasAssetAt {p : Pending} (hp : p ∈ pending) (resolved : Resolved)
    (h : HasAssetAt events p.index p.recordName) :
    HasAssetAt (place pending events resolved) p.index p.recordName := by
  unfold place
  split
  · next index asset hplaced =>
      obtain ⟨q, hlast, rfl, -, hasset⟩ := placed_eq_some hplaced
      obtain ⟨hq, hqname⟩ := lastOf_mem hlast
      by_cases hsame : q.index = p.index
      · obtain ⟨raw, hraw, -, hname⟩ := hpending p hp
        obtain ⟨raw', hraw', -, hname'⟩ := hpending q hq
        rw [hsame, hraw] at hraw'
        cases hraw'
        have hrecord : asset.assetRecordName = p.recordName := by
          rw [hasset, ← hqname, ← hname', hname]
        obtain ⟨event, hevent, -⟩ := h
        rw [hsame, ← hrecord]
        exact setAsset_hasAssetAt (List.getElem?_eq_some_iff.mp hevent).1 asset
      · obtain ⟨event, hevent, hthere⟩ := h
        exact ⟨event, by simp [setAsset, hsame, hevent], hthere⟩
  · exact h

theorem foldl_place_hasAssetAt {p : Pending} (hp : p ∈ pending)
    (h : HasAssetAt events p.index p.recordName) :
    HasAssetAt (answers.foldl (place pending) events) p.index p.recordName := by
  induction answers generalizing events with
  | nil => exact h
  | cons r answers ih => exact ih (place_hasAssetAt hpending hp r h)

theorem foldl_place_placed (h : List.Forall₂ Completed raws events) {r : Resolved}
    (hr : r ∈ answers) {p : Pending} {asset : PhotoAsset}
    (hlast : lastOf pending r.stateId = some p)
    (hplaced : placed pending r = some (p.index, asset)) :
    HasAssetAt (answers.foldl (place pending) events) p.index p.recordName := by
  obtain ⟨hmem, hname⟩ := lastOf_mem hlast
  obtain ⟨q, -, -, -, hasset⟩ := placed_eq_some hplaced
  induction answers generalizing events with
  | nil => contradiction
  | cons r' answers ih =>
      rcases List.mem_cons.mp hr with rfl | hr
      · obtain ⟨event, hevent, -⟩ := recordName_at hpending h hmem
        have hhere := setAsset_hasAssetAt (List.getElem?_eq_some_iff.mp hevent).1 asset
        rw [hasset, ← hname] at hhere
        have hplace : place pending events r = setAsset events p.index asset := by
          simp [place, hplaced]
        rw [List.foldl_cons, hplace]
        exact foldl_place_hasAssetAt hpending hmem hhere
      · exact ih (place_completed hpending h r') hr

end pairs

/-! ## the whole call -/

namespace Pairing

variable {c : Pairing}

theorem mem_directs {p : Pending} :
    p ∈ c.directs ↔ ∃ raw, c.events[p.index]? = some raw ∧ raw.isUnpairedCreated = true ∧
      raw.recordName = p.recordName ∧
        unpairedMaster c.config c.store raw = .ok (some p.masterRecordName) := by
  rw [directs, List.mem_filterMap]
  constructor
  · rintro ⟨⟨raw, index⟩, hentry, hp⟩
    unfold direct at hp
    split at hp
    · next hunpaired =>
        split at hp
        · next master hmaster =>
            cases hp
            exact ⟨raw, List.mem_zipIdx_iff_getElem?.mp hentry, hunpaired, rfl, hmaster⟩
        · contradiction
    · contradiction
  · rintro ⟨raw, hraw, hunpaired, hname, hmaster⟩
    refine ⟨(raw, p.index), List.mem_zipIdx_iff_getElem?.mpr hraw, ?_⟩
    simp [direct, hunpaired, hmaster, hname]

theorem mem_orphans {u : String × Nat} :
    u ∈ c.orphans ↔ ∃ raw, c.events[u.2]? = some raw ∧ raw.isUnpairedCreated = true ∧
      raw.recordName = u.1 ∧ unpairedMaster c.config c.store raw = .ok none := by
  rw [orphans, List.mem_filterMap]
  constructor
  · rintro ⟨⟨raw, index⟩, hentry, hu⟩
    unfold orphan at hu
    split at hu
    · next hunpaired =>
        split at hu
        · next hmaster =>
            cases hu
            exact ⟨raw, List.mem_zipIdx_iff_getElem?.mp hentry, hunpaired, rfl, hmaster⟩
        · contradiction
    · contradiction
  · rintro ⟨raw, hraw, hunpaired, hname, hmaster⟩
    refine ⟨(raw, u.2), List.mem_zipIdx_iff_getElem?.mpr hraw, ?_⟩
    simp [orphan, hunpaired, hmaster, hname]

theorem mem_adopted {orphans : List (String × Nat)} {r : Resolved} {p : Pending} :
    p ∈ adopted orphans r ↔ r.resolution = .assetPresent p.masterRecordName ∧
      p.recordName = r.stateId ∧ (p.recordName, p.index) ∈ orphans := by
  obtain ⟨index, recordName, master⟩ := p
  unfold adopted
  cases r.resolution with
  | assetPresent master' => simp; grind
  | _ => simp

theorem asked_named : ∀ p ∈ c.asked, NamedAt c.events p.index p.recordName := by
  intro p hp
  rw [asked, List.mem_append, List.mem_flatMap] at hp
  cases hp with
  | inl hdirect =>
      obtain ⟨raw, hraw, hunpaired, hname, -⟩ := mem_directs.mp hdirect
      exact ⟨raw, hraw, hunpaired, hname⟩
  | inr hadopted =>
      obtain ⟨r, -, hp⟩ := hadopted
      obtain ⟨-, -, horphan⟩ := mem_adopted.mp hp
      obtain ⟨raw, hraw, hunpaired, hname, -⟩ := mem_orphans.mp horphan
      exact ⟨raw, hraw, hunpaired, hname⟩

/-- Nothing in the call holds the token back. -/
structure Quiet (c : Pairing) : Prop where
  looked : ∀ event ∈ c.events, event.isUnpairedCreated = true →
    ∃ master, unpairedMaster c.config c.store event = .ok master
  pass : (∃ event ∈ c.events, event.isUnpairedCreated = true) → c.hasPass = true
  identities : ∀ r ∈ c.identityAnswers, r.settlesIdentity c.config = true
  pairs : ∀ r ∈ c.pairAnswers, r.settlesPair c.config = true

theorem identityAnswers_stateId (h : c.replies.Answers) (name : String) :
    (∃ r ∈ c.identityAnswers, r.stateId = name) ↔ ∃ u ∈ c.orphans, u.1 = name := by
  have hnames := h.identities ((c.orphans.map (·.1)).dedup) name
  rw [List.mem_dedup, List.mem_map, List.mem_map] at hnames
  exact hnames

theorem pairAnswers_stateId (h : c.replies.Answers) (name : String) :
    (∃ r ∈ c.pairAnswers, r.stateId = name) ↔ ∃ p ∈ c.asked, p.recordName = name := by
  have hnames := h.pairs (c.asked.map (fun p => (p.recordName, p.masterRecordName))) name
  rw [List.map_map, List.mem_map, List.mem_map] at hnames
  exact hnames

theorem answers_eq_nil {α : Type} {asked : List α} {nameOf : α → String} {answers : List Resolved}
    (h : ∀ name, (∃ r ∈ answers, r.stateId = name) ↔ ∃ a ∈ asked, nameOf a = name)
    (hempty : asked.isEmpty = true) : answers = [] := by
  rw [List.eq_nil_iff_forall_not_mem]
  intro r hr
  obtain ⟨a, ha, -⟩ := (h r.stateId).mp ⟨r, hr, rfl⟩
  rw [List.isEmpty_iff.mp hempty] at ha
  contradiction

theorem resolveUnresolved_spec (h : c.replies.Answers) :
    (resolveUnresolved c.config c.replies c.store ⟨c.directs, c.orphans⟩).1.2.pending = c.asked ∧
      ((resolveUnresolved c.config c.replies c.store ⟨c.directs, c.orphans⟩).2 = [] ↔
        ∀ r ∈ c.identityAnswers, r.settlesIdentity c.config = true) := by
  have hstate := identityAnswers_stateId h
  unfold resolveUnresolved
  by_cases hempty : c.orphans.isEmpty = true
  · simp [hempty, asked, answers_eq_nil hstate hempty]
  · obtain ⟨haccum, hquiet⟩ := accum_resolveIdentity c.config c.store ⟨c.directs, c.orphans⟩
      (h.identities_nodup ((c.orphans.map (·.1)).dedup))
    have hgone : c.orphans.filter (fun u => u.1 ∉ (c.replies.resolveIdentities
        ((c.orphans.map (·.1)).dedup)).map (·.stateId)) = [] := by
      rw [List.filter_eq_nil_iff]
      intro u hu
      have hanswered : u.1 ∈ (c.replies.resolveIdentities
          ((c.orphans.map (·.1)).dedup)).map (·.stateId) := by
        rw [h.identities, List.mem_dedup]
        exact List.mem_map_of_mem hu
      simpa using hanswered
    rw [if_neg hempty]
    dsimp only
    rw [haccum, List.append_eq_nil_iff, hquiet, issueUnless_eq_nil]
    refine ⟨rfl, ?_⟩
    simp only [hgone, List.isEmpty_nil, and_true]
    refine forall₂_congr (fun r hr => ?_)
    have hknown : ∃ u ∈ c.orphans, u.1 = r.stateId := (hstate r.stateId).mp ⟨r, hr, rfl⟩
    simp [hknown]

theorem settled_of_settlesPair {config : DownloadConfig} {r : Resolved}
    (h : r.settlesPair config = true) : r.resolution.isSettled = true := by
  unfold Resolved.settlesPair at h
  cases hresolution : r.resolution <;> simp_all [RecordResolution.isSettled]

theorem resolvePending_spec (h : c.replies.Answers) (store : Store) :
    (resolvePending c.config c.replies store c.events c.asked).1.2 =
        c.pairAnswers.foldl (place c.asked) c.events ∧
      ((resolvePending c.config c.replies store c.events c.asked).2 = [] ↔
        ∀ r ∈ c.pairAnswers, r.settlesPair c.config = true) := by
  have hstate := pairAnswers_stateId h
  unfold resolvePending
  by_cases hempty : c.asked.isEmpty = true
  · simp [hempty, answers_eq_nil hstate hempty]
  · have hrefl : List.Forall₂ Completed c.events c.events :=
      List.forall₂_same.mpr (fun event _ => Completed.refl event)
    obtain ⟨haccum, hquiet⟩ :=
      accum_resolvePair asked_named c.config hrefl store c.pairAnswers
    rw [if_neg hempty]
    refine ⟨haccum, ?_⟩
    rw [List.append_eq_nil_iff, issueUnless_eq_nil, h.complete]
    change (accum _ _ c.pairAnswers).2 = [] ∧ c.pairAnswers.all _ = true ↔ _
    rw [hquiet, List.all_eq_true]
    constructor
    · exact fun hall r hr => (hall.1 r hr).2
    · intro hall
      refine ⟨fun r hr => ⟨?_, hall r hr⟩, fun r hr => settled_of_settlesPair (hall r hr)⟩
      exact (hstate r.stateId).mp ⟨r, hr, rfl⟩

theorem result_spec (h : c.replies.Answers) :
    (c.hasPass = true → c.result.1.2 = c.pairAnswers.foldl (place c.asked) c.events) ∧
      (c.result.2 = [] ↔ c.Quiet) := by
  obtain ⟨hcollected, hlooked⟩ :=
    accum_collectUnpaired c.config c.store c.events.zipIdx ⟨[], []⟩
  rw [List.nil_append, List.nil_append] at hcollected
  have hcollected : (accum (collectUnpaired c.config c.store) ⟨[], []⟩ c.events.zipIdx).1 =
      ⟨c.directs, c.orphans⟩ := hcollected
  have hlooked : (accum (collectUnpaired c.config c.store) ⟨[], []⟩ c.events.zipIdx).2 = [] ↔
      ∀ event ∈ c.events, event.isUnpairedCreated = true →
        ∃ master, unpairedMaster c.config c.store event = .ok master := by
    rw [hlooked]
    constructor
    · intro hall event hevent
      obtain ⟨i, hi⟩ := List.getElem?_of_mem hevent
      exact hall (event, i) (List.mem_zipIdx_iff_getElem?.mpr hi)
    · intro hall entry hentry
      exact hall entry.1 (List.mem_of_getElem? (List.mem_zipIdx_iff_getElem?.mp hentry))
  obtain ⟨hpending, hidentities⟩ := resolveUnresolved_spec h
  obtain ⟨hevents, hpairs⟩ := resolvePending_spec h
    (resolveUnresolved c.config c.replies c.store ⟨c.directs, c.orphans⟩).1.1
  unfold result hydrateUnpairedCreatedAssetDeltas
  dsimp only
  rw [hcollected]
  by_cases hempty : (c.directs.isEmpty && c.orphans.isEmpty) = true
  · -- no record has a master, or lacks one: each lookup failed, or there is none
    rw [if_pos hempty]
    rw [Bool.and_eq_true, List.isEmpty_iff, List.isEmpty_iff] at hempty
    have hidentity : c.identityAnswers = [] := by
      rw [List.eq_nil_iff_forall_not_mem]
      intro r hr
      obtain ⟨u, hu, -⟩ := (identityAnswers_stateId h r.stateId).mp ⟨r, hr, rfl⟩
      simp [hempty.2] at hu
    have hasked : c.asked = [] := by simp [asked, hempty.1, hidentity]
    have hpair : c.pairAnswers = [] := by
      rw [List.eq_nil_iff_forall_not_mem]
      intro r hr
      obtain ⟨p, hp, -⟩ := (pairAnswers_stateId h r.stateId).mp ⟨r, hr, rfl⟩
      simp [hasked] at hp
    refine ⟨fun _ => by simp [hpair], hlooked.trans ⟨fun hall => ?_, fun hquiet => hquiet.looked⟩⟩
    refine ⟨hall, ?_, by simp [hidentity], by simp [hpair]⟩
    rintro ⟨event, hevent, hunpaired⟩
    obtain ⟨master?, hmaster⟩ := hall event hevent hunpaired
    obtain ⟨i, hi⟩ := List.getElem?_of_mem hevent
    cases master? with
    | none =>
        have hmem : (event.recordName, i) ∈ c.orphans :=
          mem_orphans.mpr ⟨event, hi, hunpaired, rfl, hmaster⟩
        simp [hempty.2] at hmem
    | some master =>
        have hmem : ⟨i, event.recordName, master⟩ ∈ c.directs :=
          mem_directs.mpr ⟨event, hi, hunpaired, rfl, hmaster⟩
        simp [hempty.1] at hmem
  · rw [if_neg hempty]
    cases hpass : c.hasPass with
    | true =>
        simp only [if_true, hpending, forall_const]
        refine ⟨hevents, ?_⟩
        rw [List.append_eq_nil_iff, List.append_eq_nil_iff, hlooked, hidentities, hpairs]
        exact ⟨fun ⟨⟨hl, hi⟩, hp⟩ => ⟨hl, fun _ => hpass, hi, hp⟩,
          fun hquiet => ⟨⟨hquiet.looked, hquiet.identities⟩, hquiet.pairs⟩⟩
    | false =>
        simp only [Bool.false_eq_true, if_false, false_implies, true_and]
        refine ⟨fun hissues => by simp at hissues, fun hquiet => ?_⟩
        have hsome : ∃ event ∈ c.events, event.isUnpairedCreated = true := by
          by_contra hnobody
          have hnone : ∀ event ∈ c.events, ¬event.isUnpairedCreated = true :=
            fun event hevent hunpaired => hnobody ⟨event, hevent, hunpaired⟩
          apply hempty
          rw [Bool.and_eq_true, List.isEmpty_iff, List.isEmpty_iff]
          constructor
          · rw [List.eq_nil_iff_forall_not_mem]
            intro p hp
            obtain ⟨raw, hraw, hunpaired, -⟩ := mem_directs.mp hp
            exact hnone raw (List.mem_of_getElem? hraw) hunpaired
          · rw [List.eq_nil_iff_forall_not_mem]
            intro u hu
            obtain ⟨raw, hraw, hunpaired, -⟩ := mem_orphans.mp hu
            exact hnone raw (List.mem_of_getElem? hraw) hunpaired
        have hthere := hquiet.pass hsome
        rw [hpass] at hthere
        contradiction

/-! ## how a record ends -/

/-- The provider says that the asset of the record is gone. -/
def GoneAtSource (c : Pairing) (raw : Delivered) : Prop :=
  (unpairedMaster c.config c.store raw = .ok none ∧ ∃ r ∈ c.identityAnswers,
      r.stateId = raw.recordName ∧ r.resolution = .deleted false) ∨
    ∃ r ∈ c.pairAnswers, r.stateId = raw.recordName ∧
      ∃ masterFamily, r.resolution = .deleted masterFamily

/-- The record is paired with its asset, gone at the source, or the token is held back. -/
def Ends (c : Pairing) (index : Nat) (raw : Delivered) : Prop :=
  HasAssetAt c.result.1.2 index raw.recordName ∨ c.GoneAtSource raw ∨ c.result.2 ≠ []

/-- Every asset-only record ends in one of the three ways. -/
def AllEnd (c : Pairing) : Prop :=
  ∀ index raw, c.events[index]? = some raw → raw.isUnpairedCreated = true → c.Ends index raw

/-- Two records of one name are asked for, and the asset is there. -/
def SharesName (c : Pairing) : Prop :=
  ∃ p ∈ c.asked, ∃ q ∈ c.asked, p.index ≠ q.index ∧ p.recordName = q.recordName ∧
    ∃ r ∈ c.pairAnswers, r.stateId = p.recordName ∧ ∃ asset, r.resolution = .present asset

theorem pairAnswer_unique (h : c.replies.Answers) {r r' : Resolved} (hr : r ∈ c.pairAnswers)
    (hr' : r' ∈ c.pairAnswers) (hname : r.stateId = r'.stateId) : r = r' :=
  List.inj_on_of_nodup_map (h.pairs_nodup _) hr hr' hname

theorem identityAnswer_unique (h : c.replies.Answers) {r r' : Resolved}
    (hr : r ∈ c.identityAnswers) (hr' : r' ∈ c.identityAnswers) (hname : r.stateId = r'.stateId) :
    r = r' :=
  List.inj_on_of_nodup_map (h.identities_nodup _) hr hr' hname

theorem name_of_index {p q : Pending} (hp : p ∈ c.asked) (hq : q ∈ c.asked)
    (hindex : p.index = q.index) : p.recordName = q.recordName := by
  obtain ⟨raw, hraw, -, hname⟩ := asked_named p hp
  obtain ⟨raw', hraw', -, hname'⟩ := asked_named q hq
  rw [hindex, hraw'] at hraw
  cases hraw
  exact hname.symm.trans hname'

/-- A record that is not the last of its name ends in none of the ways, if the asset is there. -/
theorem not_ends_of_displaced (h : c.replies.Answers) (hquiet : c.Quiet) {p last : Pending}
    (hp : p ∈ c.asked) (hlast : lastOf c.asked p.recordName = some last)
    (hne : p.index ≠ last.index) {r : Resolved} (hr : r ∈ c.pairAnswers)
    (hname : r.stateId = p.recordName) {asset : PhotoAsset}
    (hpresent : r.resolution = .present asset) : ¬c.AllEnd := by
  intro hall
  obtain ⟨raw, hraw, hunpaired, hrecord⟩ := asked_named p hp
  obtain ⟨hevents, hissues⟩ := result_spec h
  have hpass := hquiet.pass ⟨raw, List.mem_of_getElem? hraw, hunpaired⟩
  rcases hall p.index raw hraw hunpaired with hpaired | hgone | hblocks
  · -- no answer puts an asset at the place
    have hother : ∀ r' ∈ c.pairAnswers, ∀ asset, placed c.asked r' ≠ some (p.index, asset) := by
      intro r' hr' asset' hplaced
      obtain ⟨q, hq, hindex, -, -⟩ := placed_eq_some hplaced
      obtain ⟨hqmem, hqname⟩ := lastOf_mem hq
      rw [← hqname, name_of_index hqmem hp hindex, hlast] at hq
      cases hq
      exact hne hindex.symm
    obtain ⟨event, hevent, hasset⟩ := hpaired
    rw [hevents hpass, foldl_place_other hother, hraw] at hevent
    cases hevent
    exact Delivered.not_hasAsset hunpaired _ hasset
  · rcases hgone with ⟨hmaster, r', hr', hname', hdeleted⟩ | ⟨r', hr', hname', _, hdeleted⟩
    · rw [asked, List.mem_append, List.mem_flatMap] at hp
      rcases hp with hdirect | ⟨r'', hr'', hadopted⟩
      · obtain ⟨raw', hraw', -, -, hmaster'⟩ := mem_directs.mp hdirect
        rw [hraw] at hraw'
        cases hraw'
        rw [hmaster] at hmaster'
        cases hmaster'
      · obtain ⟨hassetPresent, hname'', -⟩ := mem_adopted.mp hadopted
        have hsame : r' = r'' := identityAnswer_unique h hr' hr''
          (hname'.trans (hrecord.trans hname''))
        rw [hsame, hassetPresent] at hdeleted
        contradiction
    · have hsame : r' = r := pairAnswer_unique h hr' hr
        (hname'.trans (hrecord.trans hname.symm))
      rw [hsame, hpresent] at hdeleted
      contradiction
  · exact hblocks (hissues.mpr hquiet)

/-- A record that is asked for ends, when it does not share its name. -/
theorem ends_of_asked (h : c.replies.Answers) (hquiet : c.Quiet) (hshares : ¬c.SharesName)
    {p : Pending} (hp : p ∈ c.asked) {raw : Delivered} (hraw : c.events[p.index]? = some raw) :
    c.Ends p.index raw := by
  obtain ⟨raw', hraw', hunpaired, hrecord⟩ := asked_named p hp
  rw [hraw] at hraw'
  cases hraw'
  obtain ⟨r, hr, hname⟩ := (pairAnswers_stateId h p.recordName).mpr ⟨p, hp, rfl⟩
  have hsettles := hquiet.pairs r hr
  cases hresolution : r.resolution with
  | present asset =>
      left
      obtain ⟨last, hlast⟩ := lastOf_isSome.mpr ⟨p, hp, hname.symm⟩
      obtain ⟨hmem, hlastName⟩ := lastOf_mem hlast
      -- it is the last of its name
      have hindex : p.index = last.index := by
        by_contra hne
        exact hshares ⟨p, hp, last, hmem, hne, by rw [hlastName, hname], r, hr, hname, asset,
          hresolution⟩
      have hasset : asset.assetRecordName = r.stateId := by
        simp [Resolved.settlesPair, hresolution] at hsettles
        exact hsettles.1
      have hplaced : placed c.asked r = some (last.index, asset) := by
        simp [placed, hlast, hresolution, hasset]
      have hrefl : List.Forall₂ Completed c.events c.events :=
        List.forall₂_same.mpr (fun event _ => Completed.refl event)
      have hthere := foldl_place_placed asked_named hrefl hr hlast hplaced
      have hpass := hquiet.pass ⟨raw, List.mem_of_getElem? hraw, hunpaired⟩
      rw [(result_spec h).1 hpass, hindex, hrecord, ← hname, ← hlastName]
      exact hthere
  | deleted masterFamily =>
      exact .inr (.inl (.inr ⟨r, hr, hname.trans hrecord.symm, masterFamily, hresolution⟩))
  | _ => simp [Resolved.settlesPair, hresolution] at hsettles

/-- **Every asset-only record ends**, unless two of one name are asked for and the asset is there,
while nothing holds the token back. -/
theorem allEnd_iff (h : c.replies.Answers) : c.AllEnd ↔ ¬c.Quiet ∨ ¬c.SharesName := by
  constructor
  · intro hall
    by_contra hnot
    rw [not_or, not_not, not_not] at hnot
    obtain ⟨hquiet, p, hp, q, hq, hne, hsame, r, hr, hname, asset, hpresent⟩ := hnot
    obtain ⟨last, hlast⟩ := lastOf_isSome.mpr ⟨p, hp, rfl⟩
    by_cases hindex : p.index = last.index
    · rw [hsame] at hlast hname
      rw [hindex] at hne
      exact not_ends_of_displaced h hquiet hq hlast (Ne.symm hne) hr hname hpresent hall
    · exact not_ends_of_displaced h hquiet hp hlast hindex hr hname hpresent hall
  · intro hcases index raw hraw hunpaired
    by_cases hquiet : c.Quiet
    · have hshares : ¬c.SharesName := hcases.resolve_left (not_not.mpr hquiet)
      obtain ⟨master?, hmaster⟩ := hquiet.looked raw (List.mem_of_getElem? hraw) hunpaired
      cases master? with
      | some master =>
          have hp : ⟨index, raw.recordName, master⟩ ∈ c.asked := List.mem_append_left _
            (mem_directs.mpr ⟨raw, hraw, hunpaired, rfl, hmaster⟩)
          exact ends_of_asked h hquiet hshares hp hraw
      | none =>
          have horphan : (raw.recordName, index) ∈ c.orphans :=
            mem_orphans.mpr ⟨raw, hraw, hunpaired, rfl, hmaster⟩
          obtain ⟨r, hr, hname⟩ := (identityAnswers_stateId h raw.recordName).mpr
            ⟨_, horphan, rfl⟩
          have hsettles := hquiet.identities r hr
          cases hresolution : r.resolution with
          | assetPresent master =>
              have hp : ⟨index, raw.recordName, master⟩ ∈ c.asked :=
                List.mem_append_right _ (List.mem_flatMap.mpr
                  ⟨r, hr, mem_adopted.mpr ⟨hresolution, hname.symm, horphan⟩⟩)
              exact ends_of_asked h hquiet hshares hp hraw
          | deleted masterFamily =>
              cases masterFamily with
              | false => exact .inr (.inl (.inl ⟨hmaster, r, hr, hname, hresolution⟩))
              | true => simp [Resolved.settlesIdentity, hresolution] at hsettles
          | _ => simp [Resolved.settlesIdentity, hresolution] at hsettles
    · exact .inr (.inr (fun hissues => hquiet ((result_spec h).2.mp hissues)))

end Pairing

/-- **How the asset-only records of a delta end**, whatever the provider and the database answer. -/
theorem unpaired_end_iff (config : DownloadConfig) (hasPass : Bool) (replies : Replies)
    (lookups : RecordLookups) (store : Store) (events : List Delivered) :
    let c : Pairing := ⟨config, hasPass, replies.withLookups lookups, store, events⟩
    c.AllEnd ↔ ¬c.Quiet ∨ ¬c.SharesName :=
  Pairing.allEnd_iff (withLookups_answers replies lookups)

/-! ## a record that comes twice -/

def datedAsset : PhotoStream.Json :=
  .object [("recordName", .string "a"), ("recordType", .string "CPLAsset"),
    ("fields", .object [("assetDate", .object [("value", .number "0")])])]

/-- The provider has the asset "a" and its master "m". -/
def pairedLookups : RecordLookups where
  host := { Lookup.plainHost with dateOfNumber := fun _ => some 0 }
  identities _ _ := .response 0 (.object [("records", .array [])])
  pairs _ _ := .response 0 (.object [("records", .array [Lookup.masterRecord, datedAsset])])
  identityRecorded _ := true
  pairRecorded _ := true

/-- The asset record came without its master. -/
def assetOnlyEvent : Delivered :=
  { ChangeEvent.new "a" (some "CPLAsset") .created with
    masterRecordName := some "m", replies := wellReplied }

def twicePairing : Pairing where
  config := ⟨"PrimarySync", false, .download, none⟩
  hasPass := true
  replies := plainReplies.withLookups pairedLookups
  store := ⟨.empty, fun _ => none⟩
  events := [assetOnlyEvent, assetOnlyEvent]

/-- **The first of two copies** gets no asset, and nothing holds the token back. -/
theorem first_copy_unpaired : ¬twicePairing.AllEnd := by
  intro hall
  have hfirst : twicePairing.result.1.2[0]? = some assetOnlyEvent := rfl
  have hquiet : twicePairing.result.2 = [] := rfl
  have hmaster : unpairedMaster twicePairing.config twicePairing.store assetOnlyEvent =
      .ok (some "m") := rfl
  rcases hall 0 assetOnlyEvent rfl rfl with hpaired | hgone | hblocks
  · obtain ⟨event, hevent, asset, hasset, -⟩ := hpaired
    rw [hfirst] at hevent
    cases hevent
    cases hasset
  · rcases hgone with ⟨hnone, -⟩ | ⟨r, hr, -, masterFamily, hdeleted⟩
    · rw [hmaster] at hnone
      cases hnone
    · have hanswers : ∃ asset, twicePairing.pairAnswers = [⟨"a", .present asset, true⟩] :=
        ⟨_, rfl⟩
      obtain ⟨asset, hanswers⟩ := hanswers
      rw [hanswers, List.mem_singleton] at hr
      rw [hr] at hdeleted
      cases hdeleted
  · exact hblocks hquiet

end Kei.Incremental
