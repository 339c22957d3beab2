import Kei.Changes.Delivery
import Kei.Changes.Hydrated

/-!
# Kei.Changes.Matched

Which of the missing assets a source gives.

A pair takes its asset whatever its reason is, and the scan stops as soon as
nothing is missing.  What is taken is what the feed pairs anywhere, so an asset
that is deleted, hidden, or deleted later is given like a live one.
-/

namespace Kei.Changes

open PhotoStream (Json)

variable {host : Host} {drain : DrainOrder} {id : String} {p : List Record} {r : Record}

/-! ## what a scan has read -/

/-- The records of all pages. -/
def Feed.records : Feed → List Record
  | .failed _ => []
  | .last records _ => records
  | .more records _ rest => records ++ rest.records

section
variable {σ : Type} {onRecord : σ → Record → σ × Bool} {goOn : σ → Bool}

/-- The state after some records that are all read. -/
def readAll (onRecord : σ → Record → σ × Bool) (state : σ) (records : List Record) : σ :=
  records.foldl (fun state record => (onRecord state record).1) state

theorem readAll_cons (onRecord : σ → Record → σ × Bool) (state : σ) (record : Record)
    (records : List Record) : readAll onRecord state (record :: records) =
      readAll onRecord (onRecord state record).1 records := rfl

theorem scanRecords_read
    (hflag : ∀ state record, (onRecord state record).2 = goOn (onRecord state record).1)
    (records : List Record) (state : σ) :
    ∃ read rest, records = read ++ rest ∧
      (scanRecords onRecord state records).1 = readAll onRecord state read ∧
      ((scanRecords onRecord state records).2 = true → rest = []) ∧
      ((scanRecords onRecord state records).2 = false →
        goOn (readAll onRecord state read) = false) := by
  induction records generalizing state with
  | nil => exact ⟨[], [], rfl, rfl, fun _ => rfl, by simp [scanRecords]⟩
  | cons record records ih =>
      have hone := hflag state record
      rw [scanRecords]
      cases hrecord : onRecord state record with
      | mk next continues =>
          rw [hrecord] at hone
          cases continues with
          | false =>
              refine ⟨[record], records, rfl, ?_, by simp, fun _ => ?_⟩
              · simp [readAll, hrecord]
              · simpa [readAll, hrecord] using hone.symm
          | true =>
              obtain ⟨read, rest, hsplit, hstate, hall, hstopped⟩ := ih next
              refine ⟨record :: read, rest, by simp [hsplit], ?_, hall, ?_⟩
              · simpa [readAll, hrecord] using hstate
              · simpa [readAll, hrecord] using hstopped

/-- A scan reads the whole feed, or stops in a state that wants nothing more. -/
theorem scanChangesZone_read
    (hflag : ∀ state record, (onRecord state record).2 = goOn (onRecord state record).1)
    (feed : Feed) {state result : σ} (h : scanChangesZone onRecord state feed = .ok result) :
    ∃ read rest, feed.records = read ++ rest ∧ result = readAll onRecord state read ∧
      (rest = [] ∨ goOn result = false) := by
  induction feed generalizing state with
  | failed error => simp [scanChangesZone] at h
  | last records syncToken =>
      obtain ⟨read, rest, hsplit, hstate, hall, hstopped⟩ :=
        scanRecords_read hflag records state
      have hresult : (scanRecords onRecord state records).1 = result := by
        simpa [scanChangesZone] using h
      rw [hstate] at hresult
      refine ⟨read, rest, hsplit, hresult.symm, ?_⟩
      rw [← hresult]
      cases hflag : (scanRecords onRecord state records).2 with
      | true => exact .inl (hall hflag)
      | false => exact .inr (hstopped hflag)
  | more records syncToken feed ih =>
      obtain ⟨read, rest, hsplit, hstate, hall, hstopped⟩ :=
        scanRecords_read hflag records state
      rw [scanChangesZone] at h
      cases hscan : scanRecords onRecord state records with
      | mk next continues =>
          simp only [hscan] at h hstate hall hstopped
          cases continues with
          | false =>
              have hresult : next = result := by simpa using h
              refine ⟨read, rest ++ feed.records, by simp [Feed.records, hsplit], ?_, .inr ?_⟩
              · rw [← hresult, hstate]
              · rw [← hresult, hstate]
                exact hstopped rfl
          | true =>
              obtain ⟨later, rest', hlater, hresult, hend⟩ := ih h
              have hread : read = records := by simpa [hall rfl] using hsplit.symm
              refine ⟨records ++ later, rest', by simp [Feed.records, hlater], ?_, hend⟩
              rw [hresult, hstate, hread]
              simp [readAll]

end

/-! ## what events carry -/

/-- One of the events carries the asset. -/
def Carries (id : String) (events : List ChangeEvent) : Prop :=
  ∃ e ∈ events, ∃ asset, e.asset = some asset ∧ asset.assetRecordName = id

@[simp] theorem carries_nil : ¬ Carries id [] := by simp [Carries]

@[simp] theorem carries_append (events later : List ChangeEvent) :
    Carries id (events ++ later) ↔ Carries id events ∨ Carries id later := by
  simp [Carries, or_and_right, exists_or]

@[simp] theorem carries_cons (e : ChangeEvent) (events : List ChangeEvent) :
    Carries id (e :: events) ↔
      (∃ asset, e.asset = some asset ∧ asset.assetRecordName = id) ∨ Carries id events := by
  simp [Carries]

theorem not_carries {events : List ChangeEvent} (h : ∀ e ∈ events, e.asset = none) :
    ¬ Carries id events := by
  simp only [Carries, not_exists, not_and]
  intro e he asset hasset
  simp [h e he] at hasset

theorem flush_carries_none (b : DeltaRecordBuffer) : ¬ Carries id (b.flush drain) := by
  apply not_carries
  intro e he
  simp only [DeltaRecordBuffer.flush, List.mem_append, List.mem_flatMap, Option.mem_toList,
    Option.map_eq_some_iff, List.mem_map] at he
  grind [ChangeEvent.new]

theorem standalone_carries_none (b : DeltaRecordBuffer) (hmaster : r.isMaster r.recordName = false)
    (hasset : r.refersTo = none) : ¬ Carries id (b.processRecord host r).2 := by
  apply not_carries
  have hrelation (reason : ChangeReason) : (parseRelationDelta r reason).asset = none := by
    rw [parseRelationDelta]
    split <;> rfl
  have halbum (reason : ChangeReason) : (parseAlbumDelta host r reason).asset = none := rfl
  unfold DeltaRecordBuffer.processRecord
  dsimp only
  split
  · simp [ChangeEvent.new]
  · next hblank =>
      split
      · split
        · simpa using hrelation _
        · split
          · simpa using halbum _
          · split
            · simpa using hrelation _
            · simp [ChangeEvent.new]
      · next hdeleted =>
          split
          · next htype => simp [Record.isMaster, hblank, hdeleted, htype] at hmaster
          · next htype =>
              have href : r.masterRef = none := by
                simpa [Record.refersTo, hblank, hdeleted, htype] using hasset
              simp [DeltaRecordBuffer.placeAsset, href, ChangeEvent.new]
          · simpa using halbum _
          · simpa using hrelation _
          · simp

theorem carries_iff_reasons {events : List ChangeEvent}
    (h : ∀ e ∈ events, e.recordType = some "CPLMaster") :
    Carries id events ↔ reasonsFor id events ≠ [] := by
  induction events with
  | nil => simp [reasonsFor]
  | cons e events ih =>
      have hrest := ih (fun e he => h e (by simp [he]))
      have htype := h e (by simp)
      rw [reasonsFor] at hrest
      rw [carries_cons, hrest, reasonsFor, List.filterMap_cons, ChangeEvent.reasonFor]
      cases hasset : e.asset with
      | none => simp [htype]
      | some asset => by_cases hname : asset.assetRecordName = id <;> simp [hname]

theorem emitPaired_type (master asset : Record) (reason : ChangeReason) (useId : Bool) :
    (emitPaired host master asset reason useId).recordType = some "CPLMaster" := by
  unfold emitPaired
  dsimp only
  split <;> rfl

theorem placeMaster_types (b : DeltaRecordBuffer) (reason : ChangeReason) :
    ∀ e ∈ (b.placeMaster host r reason).2, e.recordType = some "CPLMaster" := by
  rw [DeltaRecordBuffer.placeMaster]
  cases b.pendingAssets.lookup r.recordName with
  | none => simp
  | some assets =>
      intro e he
      obtain ⟨entry, -, rfl⟩ := List.mem_map.mp he
      exact emitPaired_type _ _ _ _

theorem placeAsset_types {name : String} (b : DeltaRecordBuffer) (reason : ChangeReason)
    (href : r.masterRef = some name) :
    ∀ e ∈ (b.placeAsset host r reason).2, e.recordType = some "CPLMaster" := by
  simp only [DeltaRecordBuffer.placeAsset, href]
  cases b.pendingMasters.lookup name with
  | some master => simp [emitPaired_type]
  | none => cases b.pairedMasters.lookup name <;> simp [emitPaired_type]

/-! ## what a feed pairs -/

/-- One of the deliveries has a master. -/
def Paired (ds : List Delivery) : Prop := ∃ d ∈ ds, d.master.isSome

@[simp] theorem paired_append (ds later : List Delivery) :
    Paired (ds ++ later) ↔ Paired ds ∨ Paired later := by
  simp [Paired, or_and_right, exists_or]

theorem paired_iff_nonempty {ds : List Delivery} (h : ∀ d ∈ ds, d.master.isSome) :
    Paired ds ↔ ds.map Delivery.reason ≠ [] := by
  cases ds with
  | nil => simp [Paired]
  | cons d ds =>
      have hmaster := h d (by simp)
      simp [Paired, hmaster]

variable {b : DeltaRecordBuffer}

theorem processRecord_carries (h : Holds p b) (r : Record) :
    Carries id (b.processRecord host r).2 ↔ Paired (delivered host id p r) := by
  have hreasons := (processRecord_spec host id h r).2
  rcases Record.kinds host id b r with ⟨hmaster, hasset, -⟩ | ⟨hmaster, hasset, hreported, hrun⟩ |
    ⟨name, hasset, href, hreported, hmaster, -, hrun⟩
  · have hnone := @standalone_carries_none host id r b (hmaster _) hasset
    have hlone : ¬ Paired (delivered host id p r) := by
      by_cases hreported : r.reported = true
      · by_cases hname : r.recordName = id <;> simp [Paired, delivered, hreported, hname]
      · simp [Paired, delivered, hreported, hasset, hmaster]
    simp [hnone, hlone]
  · rw [carries_iff_reasons (by rw [hrun]; exact placeMaster_types b _), hreasons]
    refine (paired_iff_nonempty ?_).symm
    simp only [delivered, hreported, hasset]
    grind
  · rw [carries_iff_reasons (by rw [hrun]; exact placeAsset_types b _ href), hreasons]
    refine (paired_iff_nonempty ?_).symm
    simp only [delivered, hreported, hasset]
    grind

theorem processRecords_carries (h : Holds p b) (records : List Record) :
    Carries id (b.processRecords host records).2 ↔ Paired (deliveries host id p records) := by
  induction records generalizing p b with
  | nil => simp [DeltaRecordBuffer.processRecords, deliveries, Paired]
  | cons r records ih =>
      have hone := (processRecord_spec host id h r).1
      rw [processRecords_cons, deliveries, carries_append, paired_append,
        processRecord_carries h r, ih hone]

theorem processRecords_append (b : DeltaRecordBuffer) (records later : List Record) :
    b.processRecords host (records ++ later) =
      (((b.processRecords host records).1.processRecords host later).1,
        (b.processRecords host records).2 ++
          ((b.processRecords host records).1.processRecords host later).2) := by
  induction records generalizing b with
  | nil => rfl
  | cons r records ih => simp only [List.cons_append, processRecords_cons, ih, List.append_assoc]

theorem processRecords_carries_mono {records later : List Record}
    (h : Carries id (b.processRecords host records).2) :
    Carries id (b.processRecords host (records ++ later)).2 := by
  rw [processRecords_append, carries_append]
  exact .inl h

/-! ## what is taken -/

theorem takeEvent_missing {m : Matching} (zoneName : String) (e : ChangeEvent)
    (h : m.missing.Nodup) :
    (m.takeEvent zoneName e).missing.Nodup ∧
      (id ∈ (m.takeEvent zoneName e).missing ↔ id ∈ m.missing ∧ ¬ Carries id [e]) := by
  rw [Matching.takeEvent]
  cases hasset : e.asset with
  | none => simp [h, hasset]
  | some asset =>
      dsimp only
      by_cases hmem : asset.assetRecordName ∈ m.missing
      · rw [if_pos hmem]
        refine ⟨h.erase _, ?_⟩
        rw [h.mem_erase_iff, carries_cons, hasset]
        simp [and_comm, eq_comm]
      · rw [if_neg hmem]
        refine ⟨h, ?_⟩
        simp only [carries_cons, hasset, carries_nil, or_false, Option.some.injEq]
        grind

theorem takeEvents_missing (zoneName : String) (events : List ChangeEvent) {m : Matching}
    (h : m.missing.Nodup) :
    (events.foldl (Matching.takeEvent zoneName) m).missing.Nodup ∧
      (id ∈ (events.foldl (Matching.takeEvent zoneName) m).missing ↔
        id ∈ m.missing ∧ ¬ Carries id events) := by
  induction events generalizing m with
  | nil => simp [h]
  | cons e events ih =>
      obtain ⟨hnodup, hone⟩ := @takeEvent_missing id m zoneName e h
      obtain ⟨hnext, hall⟩ := ih hnodup
      refine ⟨hnext, ?_⟩
      rw [List.foldl_cons, hall, hone, carries_cons, carries_cons]
      simp only [carries_nil, or_false, not_or, and_assoc]

theorem takeEvents_matched (zoneName : String) (events : List ChangeEvent) (m : Matching) :
    ∀ asset ∈ (events.foldl (Matching.takeEvent zoneName) m).matched, asset ∈ m.matched ∨
      asset.assetRecordName ∈ m.missing ∧ Carries asset.assetRecordName events := by
  induction events generalizing m with
  | nil => simp
  | cons e events ih =>
      intro asset hasset
      have hnext : (asset ∈ (m.takeEvent zoneName e).matched ∨
          asset.assetRecordName ∈ (m.takeEvent zoneName e).missing ∧
            Carries asset.assetRecordName events) := ih _ asset hasset
      rw [Matching.takeEvent] at hnext
      rw [carries_cons]
      cases hcarried : e.asset with
      | none => grind
      | some photo =>
          by_cases hmem : photo.assetRecordName ∈ m.missing
          · simp only [hcarried, if_pos hmem, List.mem_append, List.mem_singleton] at hnext
            grind [List.mem_of_mem_erase]
          · simp only [hcarried, if_neg hmem] at hnext
            grind

/-- A scan goes on while something is missing. -/
def stillMissing (state : DeltaRecordBuffer × Matching) : Bool := !state.2.missing.isEmpty

theorem matchRecord_goesOn (source : Source) (state : DeltaRecordBuffer × Matching)
    (record : Record) : (source.matchRecord host state record).2 =
      stillMissing (source.matchRecord host state record).1 := by
  unfold Source.matchRecord
  cases state.1.processRecords host [record]
  rfl

theorem readAll_matchRecord (source : Source) (records : List Record) (b : DeltaRecordBuffer)
    (m : Matching) :
    readAll (source.matchRecord host) (b, m) records =
      ((b.processRecords host records).1,
        (b.processRecords host records).2.foldl (Matching.takeEvent source.zoneName) m) := by
  induction records generalizing b m with
  | nil => rfl
  | cons r records ih =>
      have hone : (source.matchRecord host (b, m) r).1 =
          ((b.processRecord host r).1,
            (b.processRecord host r).2.foldl (Matching.takeEvent source.zoneName) m) := by
        simp [Source.matchRecord, DeltaRecordBuffer.processRecords]
      rw [readAll_cons, hone, ih, processRecords_cons, List.foldl_append]

variable {source : Source} {missing : List String} {m : Matching}

/-- The result of a source: what the records that it has read carry. -/
theorem matchingAssetsFromChanges_read
    (h : source.matchingAssetsFromChanges host drain missing = .ok m) :
    ∃ read rest b, source.feed.records = read ++ rest ∧
      m = ((DeltaRecordBuffer.new.processRecords host read).2 ++
        DeltaRecordBuffer.flush drain b).foldl (Matching.takeEvent source.zoneName)
          ⟨missing, []⟩ ∧
      (rest = [] ∨ ((DeltaRecordBuffer.new.processRecords host read).2.foldl
        (Matching.takeEvent source.zoneName) ⟨missing, []⟩).missing = []) := by
  rw [Source.matchingAssetsFromChanges] at h
  cases hscan : scanChangesZone (source.matchRecord host) (.new, ⟨missing, []⟩) source.feed with
  | error error => simp [hscan, Except.map] at h
  | ok state =>
      simp only [hscan, Except.map, Except.ok.injEq] at h
      obtain ⟨read, rest, hsplit, hstate, hend⟩ :=
        scanChangesZone_read (matchRecord_goesOn source) _ hscan
      rw [readAll_matchRecord] at hstate
      subst hstate
      refine ⟨read, rest, (DeltaRecordBuffer.new.processRecords host read).1, hsplit, ?_, ?_⟩
      · rw [List.foldl_append]
        exact h.symm
      · simpa [stillMissing] using hend

/-- **What a source takes** is what its feed pairs. -/
theorem matchingAssetsFromChanges_missing (hnodup : missing.Nodup)
    (h : source.matchingAssetsFromChanges host drain missing = .ok m) (hid : id ∈ missing) :
    id ∈ m.missing ↔ ¬ Paired (deliveries host id [] source.feed.records) := by
  obtain ⟨read, rest, b, hsplit, hm, hend⟩ := matchingAssetsFromChanges_read h
  have hflush : ¬ Carries id (b.flush drain) := flush_carries_none b
  have hleft : id ∈ m.missing ↔
      ¬ Carries id (DeltaRecordBuffer.new.processRecords host read).2 := by
    rw [hm, (takeEvents_missing source.zoneName _ hnodup).2, carries_append]
    simp [hid, hflush]
  have hfeed : Carries id (DeltaRecordBuffer.new.processRecords host source.feed.records).2 ↔
      Paired (deliveries host id [] source.feed.records) := processRecords_carries holds_new _
  rw [hleft, ← hfeed, hsplit]
  cases hend with
  | inl hall => simp [hall]
  | inr hnone =>
      have hread : Carries id (DeltaRecordBuffer.new.processRecords host read).2 := by
        by_contra hnot
        have hmem := (@takeEvents_missing id source.zoneName
          (DeltaRecordBuffer.new.processRecords host read).2 ⟨missing, []⟩ hnodup).2.mpr
            ⟨hid, hnot⟩
        simp [hnone] at hmem
      simp [hread, processRecords_carries_mono hread]

theorem matchingAssetsFromChanges_matched
    (h : source.matchingAssetsFromChanges host drain missing = .ok m) :
    ∀ asset ∈ m.matched, asset.assetRecordName ∈ missing ∧
      Paired (deliveries host asset.assetRecordName [] source.feed.records) := by
  obtain ⟨read, rest, b, hsplit, hm, -⟩ := matchingAssetsFromChanges_read h
  intro asset hasset
  rw [hm] at hasset
  have htaken := takeEvents_matched source.zoneName _ _ asset hasset
  have hflush : ¬ Carries asset.assetRecordName (b.flush drain) := flush_carries_none b
  simp only [List.not_mem_nil, false_or, carries_append, hflush, or_false] at htaken
  refine ⟨htaken.1, ?_⟩
  rw [← processRecords_carries holds_new, hsplit]
  exact processRecords_carries_mono htaken.2

/-! ## only live assets -/

/-- The feed shows the asset as live in the end. -/
def Feed.ShowsLive (feed : Feed) (id : String) : Prop :=
  expectedReason id feed.records = some .created

/-- What a source gives is live, and what is missing and not live blocks the token of an album
whose only source it is. -/
structure Source.GivesOnlyLive (source : Source) (host : Host) (drain : DrainOrder)
    (missing : List String) (m : Matching) : Prop where
  given : ∀ asset ∈ m.matched, source.feed.ShowsLive asset.assetRecordName
  kept : ∀ id ∈ missing, ¬ source.feed.ShowsLive id → id ∈ m.missing
  blocked : ∀ (stream : CrossZoneStream) (received : Nat → Bool) (containerId : String)
    (ids : List String) (out : Sending) (seen : BaseSeen), stream.sources = [source] →
    albumRelationItemIds containerId stream.relations = .ok ids →
    ids.filter (· ∉ seen.seenAssetRecords) = missing →
    ∀ id ∈ missing, ¬ source.feed.ShowsLive id →
      (stream.hydrate host drain received containerId out seen).2 = none

theorem hydrate_blocked {missing ids : List String} {stream : CrossZoneStream}
    {containerId : String} {seen : BaseSeen}
    (h : source.matchingAssetsFromChanges host drain missing = .ok m)
    (hsources : stream.sources = [source])
    (hids : albumRelationItemIds containerId stream.relations = .ok ids)
    (hmissing : ids.filter (· ∉ seen.seenAssetRecords) = missing) (hid : id ∈ missing)
    (hleft : id ∈ m.missing) (received : Nat → Bool) (out : Sending) :
    (stream.hydrate host drain received containerId out seen).2 = none := by
  have hsome : missing.isEmpty = false := by
    cases missing with
    | nil => simp at hid
    | cons => rfl
  have hstill : m.missing.isEmpty = false := by
    cases hm : m.missing with
    | nil => simp [hm] at hleft
    | cons => rfl
  simp only [CrossZoneStream.hydrate, hids, hmissing, hsome, hsources, hydrateFrom, h,
    Bool.false_eq_true, if_false]
  cases hsend : out.sendAll received m.matched with
  | mk out goOn => cases goOn <;> simp [hstill]

/--
**A source gives only live assets** if and only if the feed shows every missing
asset live that it pairs with its master anywhere.
-/
theorem gives_only_live_iff (host : Host) (drain : DrainOrder) (source : Source)
    (missing : List String) (hnodup : missing.Nodup) (m : Matching)
    (h : source.matchingAssetsFromChanges host drain missing = .ok m) :
    source.GivesOnlyLive host drain missing m ↔
      ∀ id ∈ missing, Paired (deliveries host id [] source.feed.records) →
        source.feed.ShowsLive id := by
  constructor
  · intro honly id hid hpaired
    by_contra hlive
    have hleft := honly.kept id hid hlive
    exact (matchingAssetsFromChanges_missing hnodup h hid).mp hleft hpaired
  · intro hlive
    have hkept : ∀ id ∈ missing, ¬ source.feed.ShowsLive id → id ∈ m.missing := by
      intro id hid hnot
      rw [matchingAssetsFromChanges_missing hnodup h hid]
      exact fun hpaired => hnot (hlive id hid hpaired)
    constructor
    · intro asset hasset
      have htaken := matchingAssetsFromChanges_matched h asset hasset
      exact hlive _ htaken.1 htaken.2
    · exact hkept
    · intro stream received containerId ids out seen hsources hids hmissing id hid hnot
      exact hydrate_blocked h hsources hids hmissing hid (hkept id hid hnot) received out

/-- The photo in the shared library, with a number in a field of its asset. -/
def photoSource (field number : String) : Source where
  zoneName := "SharedSync-1"
  feed := .last ((photoRecords "b").map (fun r =>
    match r.recordType, r.fields with
    | "CPLAsset", .object fields =>
        { r with fields := .object (fields ++ [(field, .object [("value", .number number)])]) }
    | _, _ => r)) "s"

/-- A live photo is given. -/
theorem gives_only_live_iff_photo :
    ∃ m, m.missing = [] ∧
      (photoSource "assetDate" "0").GivesOnlyLive plainHost inOrder ["b"] m := by
  refine ⟨_, ?_, (gives_only_live_iff plainHost inOrder _ ["b"] (by decide) _ rfl).mpr ?_⟩
  · decide
  · intro id hid _
    obtain rfl : id = "b" := by simpa using hid
    rfl

/-- **A photo in the trash is given** and is not missing any more. -/
theorem trashed_is_given :
    ¬ ∀ m, (photoSource "isDeleted" "1").matchingAssetsFromChanges plainHost inOrder ["b"] =
      .ok m → (photoSource "isDeleted" "1").GivesOnlyLive plainHost inOrder ["b"] m := by
  intro h
  have hkept := (h _ rfl).kept "b" (by simp) (by
    rw [Feed.ShowsLive]
    decide)
  revert hkept
  decide

end Kei.Changes
