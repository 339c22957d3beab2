import Kei.Changes

/-!
# Kei.Changes.Delivery

When the buffer delivers a copy of an asset, read off the feed.

A copy that refers to a master is delivered with the master record that came
last before it, or else with the first one that comes after it, or else at the
end by itself.  `Holds` says what the buffer knows of the part of the feed
that was read, and with it the events about an asset are its deliveries.
-/

namespace Kei.Changes

open Str PhotoStream

variable {host : Host} {a name : String} {p : List Record} {r : Record}

/-! ## the copies of an asset -/

/-- The record is reported at once, under its own name. -/
def Record.reported (r : Record) : Bool :=
  if isBlank r.recordName then r.recordType ≠ "CPLMaster"
  else classifyChangeReason r = .hardDeleted || r.recordType = "CPLAlbum" ||
    r.recordType = "CPLContainerRelation" || (r.recordType = "CPLAsset" && r.masterRef.isNone)

/-- The master that an asset record refers to. -/
def Record.refersTo (r : Record) : Option String :=
  if isBlank r.recordName || classifyChangeReason r = .hardDeleted || r.recordType ≠ "CPLAsset" then
    none
  else r.masterRef

/-- The record is a master record of the name. -/
def Record.isMaster (name : String) (r : Record) : Bool :=
  r.recordName = name && !isBlank r.recordName && classifyChangeReason r ≠ .hardDeleted &&
    r.recordType = "CPLMaster"

def Record.isCopy (a : String) (r : Record) : Bool :=
  r.recordName = a && (r.reported || r.refersTo.isSome)

/-- The last record of the name. -/
def lastRecord (name : String) (records : List Record) : Option Record :=
  (records.filter (fun r => r.recordName = name)).getLast?

/-- The last master record of the name. -/
def latestMaster (name : String) (records : List Record) : Option Record :=
  (records.filter (Record.isMaster name)).getLast?

/-- The reason of the last copy, reconciled with that of the last record of its master. -/
def expectedReason (a : String) (records : List Record) : Option ChangeReason :=
  (records.filter (Record.isCopy a)).getLast?.map (fun copy =>
    match copy.refersTo.bind (lastRecord · records) with
    | some master => reconcileReasons (classifyChangeReason master) (classifyChangeReason copy)
    | none => classifyChangeReason copy)

/-! ## deliveries -/

/-- A copy, and the master record that it is delivered with. -/
structure Delivery where
  copy : Record
  master : Option Record

def Delivery.reason (d : Delivery) : ChangeReason :=
  match d.master with
  | some master => reconcileReasons (classifyChangeReason master) (classifyChangeReason d.copy)
  | none => classifyChangeReason d.copy

/-- A created asset has a date. -/
def Delivery.isComplete (host : Host) (d : Delivery) : Bool :=
  d.master.isNone || d.reason ≠ .created || (assetDate host d.copy.fields).isSome

/-- The copies of the asset that wait for the master. -/
def waiting (a name : String) (records : List Record) : List Record :=
  records.filter (fun r => r.recordName = a && r.refersTo = some name)

/-- What one record delivers of the asset, after those of `p`. -/
def delivered (host : Host) (a : String) (p : List Record) (r : Record) : List Delivery :=
  if r.reported then if r.recordName = a then [⟨r, none⟩] else []
  else
    match r.refersTo with
    | some name =>
        match latestMaster name p with
        | some master =>
            if r.recordName = a then [⟨r, some master⟩].filter (·.isComplete host) else []
        | none => []
    | none =>
        if r.isMaster r.recordName ∧ latestMaster r.recordName p = none then
          ((waiting a r.recordName p).map (⟨·, some r⟩)).filter (·.isComplete host)
        else []

/-- What the records deliver, in the order of the feed. -/
def deliveries (host : Host) (a : String) : List Record → List Record → List Delivery
  | _, [] => []
  | p, r :: records => delivered host a p r ++ deliveries host a (p ++ [r]) records

/-- The copies of the asset that still wait for the master at the end. -/
def leftWaiting (a name : String) (records : List Record) : List Record :=
  if latestMaster name records = none then waiting a name records else []

/-! ## events about an asset -/

/-- The reason of an event that carries or names the asset. -/
def ChangeEvent.reasonFor (a : String) (e : ChangeEvent) : Option ChangeReason :=
  match e.asset with
  | some asset => if asset.assetRecordName = a then some e.reason else none
  | none => if e.recordName = a ∧ e.recordType ≠ some "CPLMaster" then some e.reason else none

def reasonsFor (a : String) (events : List ChangeEvent) : List ChangeReason :=
  events.filterMap (ChangeEvent.reasonFor a)

/-! ## what the buffer holds -/

structure Holds (p : List Record) (b : DeltaRecordBuffer) : Prop where
  masters : ∀ name, (b.pendingMasters.lookup name).or (b.pairedMasters.lookup name) =
    latestMaster name p
  assets : ∀ name, latestMaster name p = none →
    (b.pendingAssets.lookup name).getD [] = p.filter (fun r => r.refersTo = some name)
  none_assets : ∀ name, latestMaster name p ≠ none → b.pendingAssets.lookup name = none

theorem holds_new : Holds [] .new := by
  refine ⟨fun name => ?_, fun name _ => ?_, fun name h => ?_⟩
  · rfl
  · rfl
  · exact absurd rfl h

/-! ## the three kinds of records -/

theorem isMaster_name {name : String} (h : r.isMaster name = true) : r.recordName = name := by
  simp only [Record.isMaster, Bool.and_eq_true, decide_eq_true_eq] at h
  exact h.1.1.1

theorem isMaster_kind (h : r.isMaster name = true) : r.reported = false ∧ r.refersTo = none := by
  simp only [Record.isMaster, Bool.and_eq_true, decide_eq_true_eq, Bool.not_eq_true',
    ne_eq] at h
  obtain ⟨⟨⟨-, hblank⟩, hdeleted⟩, htype⟩ := h
  simp [Record.reported, Record.refersTo, hblank, hdeleted, htype]

theorem reported_of_refersTo (h : r.refersTo = some name) : r.reported = false := by
  simp only [Record.refersTo, Bool.or_eq_true, decide_eq_true_eq] at h
  split at h
  · contradiction
  · next hkind =>
      simp only [not_or, Bool.not_eq_true, ne_eq, not_not] at hkind
      simp [Record.reported, hkind, h]

theorem isMaster_of_refersTo (h : r.refersTo = some name) (other : String) :
    r.isMaster other = false := by
  by_contra hmaster
  rw [Bool.not_eq_false] at hmaster
  exact nomatch h.symm.trans (isMaster_kind hmaster).2

theorem latestMaster_snoc (name : String) (p : List Record) (r : Record) :
    latestMaster name (p ++ [r]) = if r.isMaster name then some r else latestMaster name p := by
  rw [latestMaster, List.filter_append]
  cases hr : r.isMaster name with
  | true => rw [List.filter_singleton, hr]; exact List.getLast?_concat
  | false => rw [List.filter_singleton, hr]; simp [latestMaster]

theorem refersTo_snoc (name : String) (p : List Record) (r : Record) :
    (p ++ [r]).filter (fun r => r.refersTo = some name) =
      p.filter (fun r => r.refersTo = some name) ++ if r.refersTo = some name then [r] else [] := by
  rw [List.filter_append, List.filter_singleton]
  by_cases h : r.refersTo = some name <;> simp [h]

variable {b : DeltaRecordBuffer}

theorem Holds.other (h : Holds p b) (hmaster : ∀ name, r.isMaster name = false)
    (hasset : r.refersTo = none) : Holds (p ++ [r]) b := by
  refine ⟨fun name => ?_, fun name hnone => ?_, fun name hsome => ?_⟩
  · rw [latestMaster_snoc, hmaster]
    exact h.masters name
  · rw [latestMaster_snoc, hmaster] at hnone
    rw [refersTo_snoc, hasset, h.assets name hnone]
    simp
  · rw [latestMaster_snoc, hmaster] at hsome
    exact h.none_assets name hsome

theorem reasonsFor_named {e : ChangeEvent} (hasset : e.asset = none) :
    reasonsFor a [e] =
      if e.recordName = a ∧ e.recordType ≠ some "CPLMaster" then [e.reason] else [] := by
  rw [reasonsFor, List.filterMap_cons, ChangeEvent.reasonFor, hasset]
  by_cases h : e.recordName = a ∧ e.recordType ≠ some "CPLMaster" <;> simp [h]

theorem parseRelationDelta_named (r : Record) (reason : ChangeReason) :
    reasonsFor a [parseRelationDelta r reason] = if r.recordName = a then [reason] else [] := by
  have hfields : (parseRelationDelta r reason).asset = none ∧
      (parseRelationDelta r reason).recordName = r.recordName ∧
      (parseRelationDelta r reason).recordType = some "CPLContainerRelation" ∧
      (parseRelationDelta r reason).reason = reason := by
    rw [parseRelationDelta]
    split <;> exact ⟨rfl, rfl, rfl, rfl⟩
  obtain ⟨hasset, hname, htype, hreason⟩ := hfields
  rw [reasonsFor_named hasset, hname, htype, hreason]
  simp

theorem parseAlbumDelta_named {r : Record} {reason : ChangeReason}
    (htype : r.recordType = "CPLAlbum") :
    reasonsFor a [parseAlbumDelta host r reason] = if r.recordName = a then [reason] else [] := by
  rw [reasonsFor_named rfl]
  simp [parseAlbumDelta, ChangeEvent.new, htype]

/-- A record is reported by itself, or a master, or an asset that refers to one. -/
theorem Record.kinds (host : Host) (a : String) (b : DeltaRecordBuffer) (r : Record) :
    ((∀ name, r.isMaster name = false) ∧ r.refersTo = none ∧
      ∃ events, b.processRecord host r = (b, events) ∧
        reasonsFor a events =
          if r.reported ∧ r.recordName = a then [classifyChangeReason r] else []) ∨
    (r.isMaster r.recordName = true ∧ r.refersTo = none ∧ r.reported = false ∧
      b.processRecord host r = b.placeMaster host r (classifyChangeReason r)) ∨
    ∃ name, r.refersTo = some name ∧ r.masterRef = some name ∧ r.reported = false ∧
      (∀ name, r.isMaster name = false) ∧ isBlank r.recordName = false ∧
      b.processRecord host r = b.placeAsset host r (classifyChangeReason r) := by
  cases hblank : isBlank r.recordName with
  | true =>
      refine .inl ⟨fun name => by simp [Record.isMaster, hblank], by simp [Record.refersTo, hblank],
        _, by simp only [DeltaRecordBuffer.processRecord, hblank, if_true]; rfl, ?_⟩
      rw [reasonsFor_named rfl]
      by_cases htype : r.recordType = "" <;>
        simp [ChangeEvent.new, Record.reported, hblank, htype, and_comm]
  | false =>
      by_cases hdeleted : classifyChangeReason r = .hardDeleted
      · refine .inl ⟨fun name => by simp [Record.isMaster, hdeleted],
          by simp [Record.refersTo, hdeleted], ?_⟩
        have hreported : r.reported = true := by simp [Record.reported, hblank, hdeleted]
        simp only [DeltaRecordBuffer.processRecord, hblank, hdeleted, hreported, true_and,
          Bool.false_eq_true, if_false, if_true]
        split
        · exact ⟨_, rfl, parseRelationDelta_named r _⟩
        · split
          · next halbum => exact ⟨_, rfl, parseAlbumDelta_named halbum⟩
          · split
            · exact ⟨_, rfl, parseRelationDelta_named r _⟩
            · refine ⟨_, rfl, ?_⟩
              rw [reasonsFor_named rfl]
              simp [ChangeEvent.new]
      · simp only [DeltaRecordBuffer.processRecord, hblank, hdeleted, Bool.false_eq_true, if_false]
        split
        · next htype =>
            refine .inr (.inl ⟨?_, ?_, ?_, rfl⟩) <;>
              simp [Record.isMaster, Record.refersTo, Record.reported, hblank, hdeleted, htype]
        · next htype =>
            cases href : r.masterRef with
            | some name =>
                refine .inr (.inr ⟨name, ?_, rfl, ?_, fun name => ?_, trivial, rfl⟩) <;>
                  simp [Record.isMaster, Record.refersTo, Record.reported, hblank, hdeleted, htype,
                    href]
            | none =>
                refine .inl ⟨fun name => by simp [Record.isMaster, htype],
                  by simp [Record.refersTo, href], [_], by rw [DeltaRecordBuffer.placeAsset, href],
                  ?_⟩
                rw [reasonsFor_named rfl]
                simp [ChangeEvent.new, Record.reported, hblank, htype, href]
        · next htype =>
            refine .inl ⟨fun name => by simp [Record.isMaster, htype],
              by simp [Record.refersTo, htype], _, rfl, ?_⟩
            rw [parseAlbumDelta_named htype]
            simp [Record.reported, hblank, htype]
        · next htype =>
            refine .inl ⟨fun name => by simp [Record.isMaster, htype],
              by simp [Record.refersTo, htype], _, rfl, ?_⟩
            rw [parseRelationDelta_named]
            simp [Record.reported, hblank, htype]
        · next hmaster hasset halbum hrelation =>
            have hmaster : ¬ r.recordType = "CPLMaster" := hmaster
            have hasset : ¬ r.recordType = "CPLAsset" := hasset
            have halbum : ¬ r.recordType = "CPLAlbum" := halbum
            have hrelation : ¬ r.recordType = "CPLContainerRelation" := hrelation
            refine .inl ⟨fun name => by simp [Record.isMaster, hmaster],
              by simp [Record.refersTo, hasset], [], rfl, ?_⟩
            simp [reasonsFor, Record.reported, hblank, hdeleted, hasset, halbum, hrelation]

/-! ## one record -/

variable {master : Record} {copy : Record}

theorem emitPaired_reason {flag : Bool} (hmaster : isBlank master.recordName = false)
    (hcopy : isBlank copy.recordName = false) :
    (emitPaired host master copy
        (reconcileReasons (classifyChangeReason master) (classifyChangeReason copy))
        flag).reasonFor a =
      if copy.recordName = a ∧ (⟨copy, some master⟩ : Delivery).isComplete host = true then
        some (⟨copy, some master⟩ : Delivery).reason
      else none := by
  generalize hreason : reconcileReasons (classifyChangeReason master) (classifyChangeReason copy) =
    reason
  have hdelivery : (⟨copy, some master⟩ : Delivery).reason = reason := hreason
  rw [hdelivery, Delivery.isComplete, hdelivery]
  by_cases hcreated : reason = .created
  · subst hcreated
    cases hdate : assetDate host copy.fields with
    | none =>
        simp [emitPaired, PhotoAsset.tryFromRecords, hmaster, hcopy, hdate, ChangeEvent.reasonFor,
          ChangeEvent.new]
    | some date =>
        cases flag <;>
          simp [emitPaired, PhotoAsset.tryFromRecords, hmaster, hcopy, hdate,
            ChangeEvent.reasonFor, PhotoAsset.fromRecords, ChangeEvent.new]
  · cases flag <;>
      simp [emitPaired, PhotoAsset.tryFromRecords, hmaster, hcopy, hcreated,
        ChangeEvent.reasonFor, PhotoAsset.fromRecords, ChangeEvent.new]

theorem emitPaired_reasons {flag : Bool} (hmaster : isBlank master.recordName = false)
    (hcopy : isBlank copy.recordName = false) :
    reasonsFor a [emitPaired host master copy
        (reconcileReasons (classifyChangeReason master) (classifyChangeReason copy)) flag] =
      (if copy.recordName = a then [⟨copy, some master⟩].filter (Delivery.isComplete host)
        else []).map Delivery.reason := by
  rw [reasonsFor, List.filterMap_cons, emitPaired_reason hmaster hcopy]
  by_cases hname : copy.recordName = a <;>
    cases hcomplete : (⟨copy, some master⟩ : Delivery).isComplete host <;>
    simp [hname, hcomplete]

theorem emitPairedGroup_reasons {copies : List Record} (hmaster : isBlank master.recordName = false)
    (hcopies : ∀ copy ∈ copies, isBlank copy.recordName = false) :
    reasonsFor a (emitPairedGroup host master copies (classifyChangeReason master)) =
      (((copies.filter (fun r => r.recordName = a)).map (⟨·, some master⟩)).filter
        (Delivery.isComplete host)).map Delivery.reason := by
  have hflags : reasonsFor a (emitPairedGroup host master copies (classifyChangeReason master)) =
      (copies.zipIdx.map Prod.fst).filterMap (fun copy =>
        if copy.recordName = a ∧ (⟨copy, some master⟩ : Delivery).isComplete host = true then
          some (⟨copy, some master⟩ : Delivery).reason
        else none) := by
    rw [reasonsFor, emitPairedGroup, List.filterMap_map, List.filterMap_map]
    refine List.filterMap_congr (fun entry hentry => ?_)
    exact emitPaired_reason hmaster (hcopies entry.1 (List.fst_mem_of_mem_zipIdx hentry))
  rw [hflags, List.zipIdx_map_fst]
  clear hflags hcopies
  induction copies with
  | nil => rfl
  | cons copy copies ih =>
      rw [List.filterMap_cons, ih, List.filter_cons]
      by_cases hname : copy.recordName = a <;>
        cases hcomplete : (⟨copy, some master⟩ : Delivery).isComplete host <;>
        simp [hname, hcomplete]

theorem latestMaster_isMaster (h : latestMaster name p = some master) :
    master.isMaster name = true := by
  have hmem := List.mem_of_getLast? h
  exact (List.mem_filter.mp hmem).2

theorem isMaster_nonblank (h : r.isMaster name = true) : isBlank r.recordName = false := by
  simp only [Record.isMaster, Bool.and_eq_true, Bool.not_eq_true'] at h
  exact h.1.1.2

theorem refersTo_nonblank (h : copy.refersTo = some name) : isBlank copy.recordName = false := by
  rw [Record.refersTo] at h
  cases hblank : isBlank copy.recordName with
  | true => simp [hblank] at h
  | false => rfl

/-- A master is placed: it is the latest of its name, and no asset waits for it. -/
theorem Holds.place (h : Holds p b) (hmaster : r.isMaster r.recordName = true)
    (hasset : r.refersTo = none) {b' : DeltaRecordBuffer}
    (hself : (b'.pendingMasters.lookup r.recordName).or (b'.pairedMasters.lookup r.recordName) =
      some r)
    (hnone : b'.pendingAssets.lookup r.recordName = none)
    (hother : ∀ name, name ≠ r.recordName →
      (b'.pendingMasters.lookup name).or (b'.pairedMasters.lookup name) =
          (b.pendingMasters.lookup name).or (b.pairedMasters.lookup name) ∧
        b'.pendingAssets.lookup name = b.pendingAssets.lookup name) : Holds (p ++ [r]) b' := by
  have hlatest : ∀ name, latestMaster name (p ++ [r]) =
      if name = r.recordName then some r else latestMaster name p := by
    intro name
    rw [latestMaster_snoc]
    cases hr : r.isMaster name with
    | true => simp [(isMaster_name hr).symm]
    | false =>
        have hname : name ≠ r.recordName := fun heq => by simp [heq, hmaster] at hr
        simp [hname]
  refine ⟨fun name => ?_, fun name hnew => ?_, fun name hsome => ?_⟩ <;>
    by_cases hname : name = r.recordName
  · rw [hlatest, if_pos hname, hname, hself]
  · rw [hlatest, if_neg hname, (hother name hname).1, h.masters]
  · simp [hlatest, hname] at hnew
  · rw [hlatest, if_neg hname] at hnew
    rw [(hother name hname).2, h.assets name hnew, refersTo_snoc, hasset]
    simp
  · rw [hname, hnone]
  · rw [hlatest, if_neg hname] at hsome
    rw [(hother name hname).2, h.none_assets name hsome]

theorem placeMaster_spec (h : Holds p b) (hmaster : r.isMaster r.recordName = true)
    (hasset : r.refersTo = none) :
    Holds (p ++ [r]) (b.placeMaster host r (classifyChangeReason r)).1 ∧
      reasonsFor a (b.placeMaster host r (classifyChangeReason r)).2 =
        (if latestMaster r.recordName p = none then
          ((waiting a r.recordName p).map (⟨·, some r⟩)).filter (Delivery.isComplete host)
        else []).map Delivery.reason := by
  have hwaiting : waiting a r.recordName p =
      (p.filter (fun copy => copy.refersTo = some r.recordName)).filter
        (fun copy => copy.recordName = a) := by
    rw [waiting, List.filter_filter]
  rw [DeltaRecordBuffer.placeMaster]
  cases hassets : b.pendingAssets.lookup r.recordName with
  | some assets =>
      have hlatest : latestMaster r.recordName p = none := by
        by_contra hne
        rw [h.none_assets _ hne] at hassets
        contradiction
      have hwaits : assets = p.filter (fun copy => copy.refersTo = some r.recordName) := by
        rw [← h.assets _ hlatest, hassets]
        rfl
      refine ⟨h.place hmaster hasset ?_ (AList.lookup_erase _ _) (fun name hname => ?_), ?_⟩
      · have hpending : b.pendingMasters.lookup r.recordName = none :=
          (Option.or_eq_none_iff.mp ((h.masters _).trans hlatest)).1
        rw [hpending, AList.lookup_insert]
        rfl
      · exact ⟨by rw [AList.lookup_insert_ne hname], AList.lookup_erase_ne hname⟩
      · rw [hlatest, if_pos rfl, hwaiting, ← hwaits]
        refine emitPairedGroup_reasons (isMaster_nonblank hmaster) (fun copy hcopy => ?_)
        rw [hwaits] at hcopy
        exact refersTo_nonblank (of_decide_eq_true (List.mem_filter.mp hcopy).2)
  | none =>
      refine ⟨h.place hmaster hasset ?_ hassets (fun name hname => ?_), ?_⟩
      · rw [AList.lookup_insert]
        rfl
      · exact ⟨by rw [AList.lookup_insert_ne hname], rfl⟩
      · by_cases hlatest : latestMaster r.recordName p = none
        · have hnone : p.filter (fun copy => copy.refersTo = some r.recordName) = [] := by
            rw [← h.assets _ hlatest, hassets]
            rfl
          rw [if_pos hlatest, hwaiting, hnone]
          rfl
        · rw [if_neg hlatest]
          rfl

theorem placeAsset_spec (h : Holds p b) (hasset : r.refersTo = some name)
    (href : r.masterRef = some name) (hmaster : ∀ name, r.isMaster name = false) :
    Holds (p ++ [r]) (b.placeAsset host r (classifyChangeReason r)).1 ∧
      reasonsFor a (b.placeAsset host r (classifyChangeReason r)).2 =
        (match latestMaster name p with
        | some master =>
            if r.recordName = a then
              [(⟨r, some master⟩ : Delivery)].filter (Delivery.isComplete host)
            else []
        | none => []).map Delivery.reason := by
  have hnoMaster : ∀ name', latestMaster name' (p ++ [r]) = latestMaster name' p := by
    intro name'
    rw [latestMaster_snoc, hmaster]
    rfl
  have hcopy := refersTo_nonblank hasset
  have hother : ∀ name', name' ≠ name → (p ++ [r]).filter (fun r => r.refersTo = some name') =
      p.filter (fun r => r.refersTo = some name') := by
    intro name' hne
    rw [refersTo_snoc, hasset, if_neg (fun heq => hne (Option.some.inj heq).symm), List.append_nil]
  have hnoAssets : ∀ name', latestMaster name' (p ++ [r]) ≠ none →
      b.pendingAssets.lookup name' = none :=
    fun name' hsome => h.none_assets name' (hnoMaster name' ▸ hsome)
  -- A master that is known has no assets that wait for it.
  have hassets {master : Record} (hlatest : latestMaster name p = some master) (name' : String)
      (hnone : latestMaster name' (p ++ [r]) = none) :
      (b.pendingAssets.lookup name').getD [] =
        (p ++ [r]).filter (fun r => r.refersTo = some name') := by
    rw [hnoMaster] at hnone
    have hne : name' ≠ name := fun heq => by simp [heq, hlatest] at hnone
    rw [hother name' hne]
    exact h.assets name' hnone
  simp only [DeltaRecordBuffer.placeAsset, href]
  cases hpending : b.pendingMasters.lookup name with
  | some master =>
      have hlatest : latestMaster name p = some master := by
        rw [← h.masters name, hpending]
        rfl
      refine ⟨⟨fun name' => ?_, hassets hlatest, hnoAssets⟩, ?_⟩
      · rw [hnoMaster]
        by_cases hname : name' = name
        · subst hname
          simp [hlatest]
        · simp only [AList.lookup_erase_ne hname, AList.lookup_insert_ne hname]
          exact h.masters name'
      · rw [hlatest]
        exact emitPaired_reasons (isMaster_nonblank (latestMaster_isMaster hlatest)) hcopy
  | none =>
      cases hpaired : b.pairedMasters.lookup name with
      | some master =>
          have hlatest : latestMaster name p = some master := by
            rw [← h.masters name, hpending, hpaired]
            rfl
          refine ⟨⟨fun name' => ?_, hassets hlatest, hnoAssets⟩, ?_⟩
          · rw [hnoMaster]
            exact h.masters name'
          · rw [hlatest]
            exact emitPaired_reasons (isMaster_nonblank (latestMaster_isMaster hlatest)) hcopy
      | none =>
          have hlatest : latestMaster name p = none := by
            rw [← h.masters name, hpending, hpaired]
            rfl
          refine ⟨⟨fun name' => ?_, fun name' hnone => ?_, fun name' hsome => ?_⟩, ?_⟩
          · rw [hnoMaster]
            exact h.masters name'
          · rw [hnoMaster] at hnone
            by_cases hname : name' = name
            · subst hname
              rw [refersTo_snoc, hasset, if_pos rfl, AList.lookup_insert, Option.getD_some,
                h.assets name' hnone]
            · rw [hother name' hname, AList.lookup_insert_ne hname]
              exact h.assets name' hnone
          · rw [hnoMaster] at hsome
            have hne : name' ≠ name := fun heq => hsome (heq ▸ hlatest)
            rw [AList.lookup_insert_ne hne]
            exact h.none_assets name' hsome
          · rw [hlatest]
            rfl

/-- **One record**: the buffer goes on holding what was read, and reports what it delivers. -/
theorem processRecord_spec (host : Host) (a : String) (h : Holds p b) (r : Record) :
    Holds (p ++ [r]) (b.processRecord host r).1 ∧
      reasonsFor a (b.processRecord host r).2 =
        (delivered host a p r).map Delivery.reason := by
  rcases Record.kinds host a b r with ⟨hmaster, hasset, events, hrun, hevents⟩ |
      ⟨hmaster, hasset, hreported, hrun⟩ | ⟨name, hasset, href, hreported, hmaster, -, hrun⟩
  · rw [hrun, delivered, hevents]
    refine ⟨h.other hmaster hasset, ?_⟩
    cases hreported : r.reported with
    | false => simp [hasset, hmaster]
    | true => by_cases hname : r.recordName = a <;> simp [hname, Delivery.reason]
  · rw [hrun, delivered, hreported, hasset]
    simpa [hmaster] using placeMaster_spec h hmaster hasset
  · simp only [hrun, delivered, hreported, hasset, Bool.false_eq_true, if_false]
    exact placeAsset_spec h hasset href hmaster

/-! ## a whole feed -/

theorem processRecords_cons (b : DeltaRecordBuffer) (r : Record) (records : List Record) :
    b.processRecords host (r :: records) =
      (((b.processRecord host r).1.processRecords host records).1,
        (b.processRecord host r).2 ++
          ((b.processRecord host r).1.processRecords host records).2) := by
  rw [DeltaRecordBuffer.processRecords]

theorem processRecords_spec (host : Host) (a : String) (h : Holds p b) (records : List Record) :
    Holds (p ++ records) (b.processRecords host records).1 ∧
      reasonsFor a (b.processRecords host records).2 =
        (deliveries host a p records).map Delivery.reason := by
  induction records generalizing p b with
  | nil =>
      rw [List.append_nil]
      exact ⟨h, rfl⟩
  | cons r records ih =>
      obtain ⟨hone, hreasons⟩ := processRecord_spec host a h r
      obtain ⟨hrest, hlater⟩ := ih hone
      rw [processRecords_cons, deliveries, List.map_append, ← hreasons, ← hlater]
      refine ⟨?_, List.filterMap_append⟩
      rw [List.append_assoc] at hrest
      exact hrest

theorem processPages_eq (host : Host) (b : DeltaRecordBuffer) (pages : List (List Record)) :
    b.processPages host pages = b.processRecords host pages.flatten := by
  have happend : ∀ (xs ys : List Record) (b : DeltaRecordBuffer),
      b.processRecords host (xs ++ ys) =
        (((b.processRecords host xs).1.processRecords host ys).1,
          (b.processRecords host xs).2 ++
              ((b.processRecords host xs).1.processRecords host ys).2) := by
    intro xs ys
    induction xs with
    | nil => exact fun b => rfl
    | cons r xs ih =>
        intro b
        simp only [List.cons_append, processRecords_cons, ih, List.append_assoc]
  induction pages generalizing b with
  | nil => rfl
  | cons page pages ih =>
      rw [List.flatten_cons, happend, DeltaRecordBuffer.processPages]
      simp only [ih]

/-- What the flush reports: the copies that still wait, by the name of their master. -/
theorem flush_reasons (h : Holds p b) (drain : DrainOrder) :
    reasonsFor a (b.flush drain) =
      (drain.assets b.pendingAssets.keys).flatMap (fun name =>
        (leftWaiting a name p).map classifyChangeReason) := by
  have hmasters : reasonsFor a ((drain.masters b.pendingMasters.keys).flatMap (fun name =>
      ((b.pendingMasters.lookup name).map (fun rec =>
        ChangeEvent.new name (some "CPLMaster") (classifyChangeReason rec))).toList)) = [] := by
    refine List.filterMap_eq_nil_iff.mpr (fun e he => ?_)
    obtain ⟨name, -, hname⟩ := List.mem_flatMap.mp he
    obtain ⟨rec, -, rfl⟩ := Option.map_eq_some_iff.mp (Option.mem_toList.mp hname)
    simp [ChangeEvent.reasonFor, ChangeEvent.new]
  have hblock : ∀ name ∈ drain.assets b.pendingAssets.keys,
      reasonsFor a (((b.pendingAssets.lookup name).getD []).map (fun rec =>
        { ChangeEvent.new rec.recordName (some "CPLAsset") (classifyChangeReason rec) with
          masterRecordName := some name })) = (leftWaiting a name p).map classifyChangeReason := by
    intro name hname
    have hkey := (drain.assets_perm _).mem_iff.mp hname
    have hlatest : latestMaster name p = none := by
      by_contra hne
      exact AList.lookup_eq_none.mp (h.none_assets name hne) (AList.mem_keys.mpr hkey)
    rw [h.assets name hlatest, leftWaiting, if_pos hlatest, waiting, ← List.filter_filter]
    generalize p.filter (fun r => r.refersTo = some name) = copies
    induction copies with
    | nil => rfl
    | cons copy copies ih =>
        rw [reasonsFor] at ih
        rw [reasonsFor, List.map_cons, List.filterMap_cons, ih]
        by_cases hcopy : copy.recordName = a <;>
          simp [ChangeEvent.reasonFor, ChangeEvent.new, hcopy]
  rw [DeltaRecordBuffer.flush, reasonsFor, List.filterMap_append]
  rw [reasonsFor] at hmasters
  rw [hmasters, List.nil_append, List.filterMap_flatMap]
  exact List.flatMap_congr hblock

end Kei.Changes
