import Kei.Changes.Delivery

/-!
# Kei.Changes.Settled

When the events about an asset end with the reason of its last records.

What counts is the copy that is delivered last.  The flush drains its maps in
any order, so of the copies that still wait then, each master's last one may be.
-/

namespace Kei.Changes

variable {host : Host} {a : String}

/-! ## the events of a feed -/

/-- The events of `later`, after the records of `read`, and of the flush. -/
def eventsAfter (host : Host) (drain : DrainOrder) (read later : List Record) :
    List ChangeEvent :=
  let (b, events) := (DeltaRecordBuffer.new.processRecords host read).1.processRecords host later
  events ++ b.flush drain

/-- The masters that the flush drains. -/
def drained (host : Host) (drain : DrainOrder) (read later : List Record) : List String :=
  drain.assets ((DeltaRecordBuffer.new.processRecords host read).1.processRecords host
    later).1.pendingAssets.keys

theorem holds_after (host : Host) (read later : List Record) :
    Holds (read ++ later)
      ((DeltaRecordBuffer.new.processRecords host read).1.processRecords host later).1 := by
  have hread : Holds ([] ++ read) (DeltaRecordBuffer.new.processRecords host read).1 :=
    (processRecords_spec host "" holds_new read).1
  exact (processRecords_spec host "" hread later).1

/-- **The events about an asset** are its deliveries, and then the copies that still wait. -/
theorem reasonsFor_eventsAfter (host : Host) (drain : DrainOrder) (a : String)
    (read later : List Record) :
    reasonsFor a (eventsAfter host drain read later) =
      (deliveries host a read later).map Delivery.reason ++
        (drained host drain read later).flatMap (fun name =>
          (leftWaiting a name (read ++ later)).map classifyChangeReason) := by
  have hread : Holds ([] ++ read) (DeltaRecordBuffer.new.processRecords host read).1 :=
    (processRecords_spec host a holds_new read).1
  have hlater := processRecords_spec host a hread later
  rw [eventsAfter, reasonsFor, List.filterMap_append]
  rw [reasonsFor, List.nil_append] at hlater
  rw [hlater.2]
  exact congrArg _ (flush_reasons hlater.1 drain)

theorem changeEvents_eq (host : Host) (drain : DrainOrder) (pages : List (List Record)) :
    changeEvents host drain pages = eventsAfter host drain [] pages.flatten := by
  rw [changeEvents, processPages_eq]
  rfl

variable {name : String}

theorem mem_drained {drain : DrainOrder} {read later : List Record}
    (h : leftWaiting a name (read ++ later) ≠ []) : name ∈ drained host drain read later := by
  refine (drain.assets_perm _).mem_iff.mpr (AList.mem_keys.mp ?_)
  by_contra hkey
  rw [leftWaiting] at h
  split at h
  · next hlatest =>
      have hwaits := (holds_after host read later).assets name hlatest
      rw [AList.lookup_eq_none.mpr hkey, Option.getD_none] at hwaits
      rw [waiting, ← List.filter_filter, ← hwaits] at h
      exact h rfl
  · exact h rfl

/-! ## the property -/

/-- An asset record of the feed has the name. -/
def IsAssetName (a : String) (records : List Record) : Prop :=
  ∃ r ∈ records, r.recordName = a ∧ r.recordType = "CPLAsset"

/-- The last copy of the asset is a deletion, and was delivered before the later records. -/
structure DeletedBefore (a : String) (read later : List Record) : Prop where
  noLater : ∀ r ∈ later, r.isCopy a = false
  deletion : ∃ copy, (read.filter (Record.isCopy a)).getLast? = some copy ∧
    (classifyChangeReason copy).isDeletion = true ∧
    ∀ name, copy.refersTo = some name → latestMaster name read ≠ none

/-- The events about the asset end with the reason of its last records, and none of them makes
the asset again after its deletion. -/
structure Settled (host : Host) (a : String) (pages : List (List Record)) : Prop where
  last : ∀ drain, (reasonsFor a (changeEvents host drain pages)).getLast? =
    expectedReason a pages.flatten
  deletion : ∀ drain read later, pages.flatten = read ++ later → DeletedBefore a read later →
    .created ∉ reasonsFor a (eventsAfter host drain read later)

/-! ## the condition -/

/-- The place of the last copy of the asset. -/
structure LastCopy (a : String) (records before : List Record) (copy : Record)
    (after : List Record) : Prop where
  split : records = before ++ copy :: after
  isCopy : copy.isCopy a = true
  noLater : ∀ r ∈ after, r.isCopy a = false

/-- The copy with the master record that came last before it, or else the first one after it. -/
def pairing (before : List Record) (copy : Record) (after : List Record) : Delivery :=
  ⟨copy, copy.refersTo.bind (fun name =>
    (latestMaster name before).or (after.find? (Record.isMaster name)))⟩

/-- No copy of the asset is overtaken by a newer one, other than of the same master, while it
waits for its master, and the last one has a date if it needs one. -/
structure Prompt (host : Host) (a : String) (records : List Record) : Prop where
  inTurn : ∀ before next after, records = before ++ next :: after → next.isCopy a = true →
    ∀ name, latestMaster name before = none → waiting a name before ≠ [] →
      next.refersTo = some name
  dated : ∀ before copy after, LastCopy a records before copy after →
    (pairing before copy after).isComplete host = true

/-- The last record of its master says of the last copy what the nearest one says. -/
def KeepsReason (a : String) (records : List Record) : Prop :=
  ∀ before copy after, LastCopy a records before copy after →
    (pairing before copy after).reason =
      Delivery.reason ⟨copy, copy.refersTo.bind (lastRecord · records)⟩

theorem exists_of_getLast? {records : List Record} {copy : Record}
    (h : (records.filter (Record.isCopy a)).getLast? = some copy) :
    ∃ before after, LastCopy a records before copy after := by
  obtain ⟨init, hinit⟩ := List.getLast?_eq_some_iff.mp h
  obtain ⟨front, back, rfl, -, hback⟩ := List.filter_eq_append_iff.mp hinit
  obtain ⟨mid, after, rfl, -, hcopy, hafter⟩ := List.filter_eq_cons_iff.mp hback
  refine ⟨front ++ mid, after, (List.append_assoc ..).symm, hcopy, fun r hr => ?_⟩
  exact Bool.eq_false_iff.mpr (List.filter_eq_nil_iff.mp hafter r hr)

/-- Every asset record is a copy. -/
theorem IsAssetName.exists_lastCopy {records : List Record} (h : IsAssetName a records) :
    ∃ before copy after, LastCopy a records before copy after := by
  obtain ⟨r, hr, hname, htype⟩ := h
  have hcopy : r.isCopy a = true := by
    cases href : r.masterRef <;>
      simp only [Record.isCopy, Record.reported, Record.refersTo, hname, htype, href] <;> grind
  cases hlast : (records.filter (Record.isCopy a)).getLast? with
  | none =>
      rw [List.getLast?_eq_none_iff] at hlast
      exact absurd hcopy (List.filter_eq_nil_iff.mp hlast r hr)
  | some copy =>
      obtain ⟨before, after, h⟩ := exists_of_getLast? hlast
      exact ⟨before, copy, after, h⟩

theorem LastCopy.expectedReason {records before after : List Record} {copy : Record}
    (h : LastCopy a records before copy after) :
    expectedReason a records =
      some (Delivery.reason ⟨copy, copy.refersTo.bind (lastRecord · records)⟩) := by
  have hafter : after.filter (Record.isCopy a) = [] :=
    List.filter_eq_nil_iff.mpr (fun r hr => Bool.eq_false_iff.mp (h.noLater r hr))
  have hlast : (records.filter (Record.isCopy a)).getLast? = some copy := by
    rw [h.split, List.filter_append, List.filter_cons_of_pos h.isCopy, hafter]
    exact List.getLast?_concat
  rw [Changes.expectedReason, hlast]
  rfl

/-! ## records that are no copy of the asset -/

/-- Of the copies of the asset only those of the one master may wait. -/
def Idle (a : String) (but : Option String) (p : List Record) : Prop :=
  ∀ name, but ≠ some name → latestMaster name p = none → waiting a name p = []

variable {p later before after : List Record} {r copy : Record} {but : Option String} {m : String}

theorem waiting_append (hlater : ∀ r ∈ later, r.isCopy a = false) :
    waiting a name (p ++ later) = waiting a name p := by
  have hnone : waiting a name later = [] := by
    refine List.filter_eq_nil_iff.mpr (fun r hr h => ?_)
    simp only [Bool.and_eq_true, decide_eq_true_eq] at h
    have hcopy := hlater r hr
    simp [Record.isCopy, h.1, h.2] at hcopy
  rw [waiting, List.filter_append]
  exact (congrArg _ hnone).trans (List.append_nil _)

theorem latestMaster_append : latestMaster name (p ++ later) = none ↔
    latestMaster name p = none ∧ later.find? (Record.isMaster name) = none := by
  simp [latestMaster, and_comm]

theorem Idle.append (h : Idle a but p) (hlater : ∀ r ∈ later, r.isCopy a = false) :
    Idle a but (p ++ later) := by
  intro name hname hlatest
  rw [waiting_append hlater]
  exact h name hname (latestMaster_append.mp hlatest).1

theorem Idle.paired (h : Idle a (some m) p) (hmaster : latestMaster m p ≠ none) :
    Idle a none p := by
  intro name _ hlatest
  refine h name (fun hname => ?_) hlatest
  cases hname
  exact hmaster hlatest

theorem Idle.leftWaiting_eq_nil (h : Idle a but p) (hname : but ≠ some name) :
    leftWaiting a name p = [] := by
  rw [leftWaiting]
  split
  · next hlatest => exact h name hname hlatest
  · rfl

theorem delivered_eq_nil (hr : r.isCopy a = false)
    (hidle : r.isMaster r.recordName = true → latestMaster r.recordName p = none →
      waiting a r.recordName p = []) : delivered host a p r = [] := by
  rw [delivered]
  split
  · next hreported => exact if_neg (fun hname => by simp [Record.isCopy, hname, hreported] at hr)
  · split
    · next href =>
        split
        · exact if_neg (fun hname => by simp [Record.isCopy, hname, href] at hr)
        · rfl
    · split
      · next hmaster => rw [hidle hmaster.1 hmaster.2]; rfl
      · rfl

/-- Records that are no copy of an asset none of whose copies waits deliver nothing of it. -/
theorem Idle.deliveries_eq_nil (h : Idle a none p) (hlater : ∀ r ∈ later, r.isCopy a = false) :
    deliveries host a p later = [] := by
  induction later generalizing p with
  | nil => rfl
  | cons r later ih =>
      obtain ⟨hr, hlater⟩ := List.forall_mem_cons.mp hlater
      have hone : Idle a none (p ++ [r]) := h.append (by simpa using hr)
      rw [deliveries, delivered_eq_nil hr (fun _ => h _ (by simp)), ih hone hlater]
      rfl

/-- The copies that wait for a master are delivered with the first record of it. -/
theorem Idle.deliveries_waiting (h : Idle a (some m) p) (hnone : latestMaster m p = none)
    (hlater : ∀ r ∈ later, r.isCopy a = false) :
    deliveries host a p later = (later.find? (Record.isMaster m)).toList.flatMap (fun master =>
      ((waiting a m p).map (⟨·, some master⟩)).filter (Delivery.isComplete host)) := by
  induction later generalizing p with
  | nil => rfl
  | cons r later ih =>
      obtain ⟨hr, hlater⟩ := List.forall_mem_cons.mp hlater
      have hone : Idle a (some m) (p ++ [r]) := h.append (by simpa using hr)
      rw [deliveries]
      cases hmaster : r.isMaster m with
      | true =>
          obtain ⟨hreported, href⟩ := isMaster_kind hmaster
          obtain rfl := isMaster_name hmaster
          have hlatest : latestMaster r.recordName (p ++ [r]) ≠ none := by
            simp [latestMaster_snoc, hmaster]
          rw [(hone.paired hlatest).deliveries_eq_nil hlater, List.find?_cons_of_pos hmaster,
            delivered, hreported, href]
          simp [hmaster, hnone]
      | false =>
          have hnil : delivered host a p r = [] := by
            refine delivered_eq_nil hr (fun hself hlatest => h _ (fun hname => ?_) hlatest)
            cases hname
            exact Bool.noConfusion (hmaster.symm.trans hself)
          have hlatest : latestMaster m (p ++ [r]) = none := by
            rw [latestMaster_snoc, hmaster]
            exact hnone
          rw [hnil, ih hone hlatest hlater, List.find?_cons_of_neg (by simp [hmaster]),
            waiting_append (by simpa using hr)]
          rfl

/-! ## the end of the flush -/

theorem getLast?_flatMap {α β : Type} {f : α → List β} {l : List α} {x : α} {y : β}
    (hx : x ∈ l) (hlast : (f x).getLast? = some y) (hother : ∀ z, z ≠ x → f z = []) :
    (l.flatMap f).getLast? = some y := by
  induction l with
  | nil => contradiction
  | cons z l ih =>
      rw [List.flatMap_cons, List.getLast?_append]
      by_cases hl : x ∈ l
      · rw [ih hl]
        rfl
      · have hrest : l.flatMap f = [] :=
          List.flatMap_eq_nil_iff.mpr (fun z hz => hother z (fun hzx => hl (hzx ▸ hz)))
        obtain rfl : x = z := (List.mem_cons.mp hx).resolve_right hl
        rw [hrest, hlast]
        rfl

/-! ## the last event -/

theorem deliveries_append (xs ys : List Record) :
    deliveries host a p (xs ++ ys) =
      deliveries host a p xs ++ deliveries host a (p ++ xs) ys := by
  induction xs generalizing p with
  | nil => rw [List.nil_append, List.append_nil]; rfl
  | cons r xs ih => simp [deliveries, ih]

variable {records : List Record}

/-- After a copy only others of its master may wait. -/
theorem Prompt.idle (h : Prompt host a records) (hsplit : records = before ++ copy :: after)
    (hcopy : copy.isCopy a = true) : Idle a copy.refersTo (before ++ [copy]) := by
  intro name hname hlatest
  have hbefore : latestMaster name before = none := (latestMaster_append.mp hlatest).1
  have hwaits : waiting a name before = [] := by
    by_contra hne
    exact hname (h.inTurn before copy after hsplit hcopy name hbefore hne)
  have hself : (decide (copy.recordName = a) && decide (copy.refersTo = some name)) = false := by
    simp [hname]
  rw [waiting, List.filter_append, List.filter_singleton, hself]
  exact (List.append_nil _).trans hwaits

theorem Idle.flush (h : Idle a none p) (names : List String) :
    names.flatMap (fun name => (leftWaiting a name p).map classifyChangeReason) = [] := by
  refine List.flatMap_eq_nil_iff.mpr (fun name _ => ?_)
  rw [h.leftWaiting_eq_nil nofun]
  rfl

/-- When nothing waits any more, the later records and the flush say nothing of the asset. -/
theorem Idle.reasonsFor_eq_nil (h : Idle a none p) (hlater : ∀ r ∈ later, r.isCopy a = false)
    (drain : DrainOrder) : reasonsFor a (eventsAfter host drain p later) = [] := by
  rw [reasonsFor_eventsAfter, h.deliveries_eq_nil hlater, (h.append hlater).flush]
  rfl

/-- **The last event** about the asset is that of its last copy and the master nearest to it. -/
theorem Prompt.getLast?_reasonsFor (h : Prompt host a records)
    (hlast : LastCopy a records before copy after) (drain : DrainOrder) :
    (reasonsFor a (eventsAfter host drain [] records)).getLast? =
      some (pairing before copy after).reason := by
  have hidle := h.idle hlast.split hlast.isCopy
  have hdated := h.dated before copy after hlast
  obtain ⟨rfl, hcopy, hlater⟩ := hlast
  obtain ⟨hname, hkind⟩ : copy.recordName = a ∧ (copy.reported = true ∨ copy.refersTo.isSome) := by
    simpa [Record.isCopy] using hcopy
  have hone : deliveries host a before [copy] = delivered host a before copy := List.append_nil _
  rw [reasonsFor_eventsAfter, List.nil_append, List.append_cons, deliveries_append,
    deliveries_append, List.nil_append, List.nil_append, hone]
  cases href : copy.refersTo with
  | none =>
      have hreported : copy.reported = true := by simpa [href] using hkind
      rw [href] at hidle
      rw [hidle.deliveries_eq_nil hlater, (hidle.append hlater).flush, delivered, if_pos hreported,
        if_pos hname, pairing, href]
      simp
  | some m =>
      rw [href] at hidle
      rw [pairing, href, Option.bind_some] at hdated ⊢
      have hlatest : latestMaster m (before ++ [copy]) = latestMaster m before := by
        rw [latestMaster_snoc, isMaster_of_refersTo href]
        rfl
      rw [delivered, reported_of_refersTo href, href]
      cases hbefore : latestMaster m before with
      | some master =>
          -- The copy comes after its master, and is delivered at once.
          rw [hbefore] at hlatest
          rw [hbefore, Option.some_or] at hdated
          have hpaired := hidle.paired (hlatest ▸ Option.some_ne_none master)
          rw [hpaired.deliveries_eq_nil hlater, (hpaired.append hlater).flush]
          simp [hname, hbefore, hdated]
      | none =>
          rw [hbefore] at hlatest
          rw [hbefore, Option.none_or] at hdated
          have hwaits : waiting a m (before ++ [copy]) = waiting a m before ++ [copy] := by
            rw [waiting, List.filter_append, List.filter_singleton]
            simp [hname, href, waiting]
          rw [hidle.deliveries_waiting hlatest hlater, hwaits]
          cases hfind : after.find? (Record.isMaster m) with
          | some master =>
              rw [hfind] at hdated
              have hmaster : latestMaster m (before ++ [copy] ++ after) ≠ none := fun hnone =>
                Option.some_ne_none master (hfind.symm.trans (latestMaster_append.mp hnone).2)
              rw [((hidle.append hlater).paired hmaster).flush]
              simp [hbefore, hdated]
          | none =>
              -- Only copies of this master are left for the flush.
              have hleft : leftWaiting a m (before ++ [copy] ++ after) =
                  waiting a m before ++ [copy] := by
                rw [leftWaiting, if_pos (latestMaster_append.mpr ⟨hlatest, hfind⟩),
                  waiting_append hlater, hwaits]
              have hflush : ((drained host drain [] (before ++ [copy] ++ after)).flatMap
                  (fun name => (leftWaiting a name (before ++ [copy] ++ after)).map
                    classifyChangeReason)).getLast? = some (classifyChangeReason copy) := by
                refine getLast?_flatMap (mem_drained (?_ : leftWaiting a m _ ≠ [])) ?_
                  (fun name hname => ?_)
                · rw [List.nil_append, hleft]
                  exact List.concat_ne_nil _ _
                · rw [hleft, List.getLast?_map, List.getLast?_concat]
                  rfl
                · rw [(hidle.append hlater).leftWaiting_eq_nil (by simpa using hname.symm)]
                  rfl
              rw [List.getLast?_append, hflush]
              rfl

theorem settled_iff (h : Prompt host a records) {pages : List (List Record)}
    (hpages : pages.flatten = records) (ha : IsAssetName a records) :
    Settled host a pages ↔ KeepsReason a records := by
  constructor
  · intro hsettled before copy after hlast
    have hevents := hsettled.last (inOrder)
    rw [changeEvents_eq, hpages, h.getLast?_reasonsFor hlast, hlast.expectedReason] at hevents
    exact Option.some.inj hevents
  · intro hkeeps
    refine ⟨fun drain => ?_, fun drain read later hsplit hdeleted => ?_⟩
    · obtain ⟨before, copy, after, hlast⟩ := ha.exists_lastCopy
      rw [changeEvents_eq, hpages, h.getLast?_reasonsFor hlast, hlast.expectedReason,
        hkeeps before copy after hlast]
    · obtain ⟨copy, hcopy, -, hmaster⟩ := hdeleted.deletion
      obtain ⟨before, after, hlast⟩ := exists_of_getLast? hcopy
      have hidle : Idle a copy.refersTo read := by
        have hrecords : records = before ++ copy :: (after ++ later) := by
          rw [← hpages, hsplit, hlast.split, List.append_assoc, List.cons_append]
        have hone := (h.idle hrecords hlast.isCopy).append hlast.noLater
        rwa [← List.append_cons, ← hlast.split] at hone
      have hnone : Idle a none read := by
        cases href : copy.refersTo with
        | none => exact href ▸ hidle
        | some name => exact Idle.paired (href ▸ hidle) (hmaster name href)
      rw [hnone.reasonsFor_eq_nil hdeleted.noLater]
      exact List.not_mem_nil

/-- **The events settle** every asset of a feed in which copies are prompt exactly when no master
changes the reason of an asset after the two were paired. -/
theorem feed_settled_iff_of_prompt {host : Host} {pages : List (List Record)}
    (h : ∀ a, IsAssetName a pages.flatten → Prompt host a pages.flatten) :
    (∀ a, IsAssetName a pages.flatten → Settled host a pages) ↔
      ∀ a, IsAssetName a pages.flatten → KeepsReason a pages.flatten := by
  constructor
  · exact fun hsettled a ha => (settled_iff (h a ha) rfl ha).mp (hsettled a ha)
  · exact fun hkeeps a ha => (settled_iff (h a ha) rfl ha).mpr (hkeeps a ha)

/-! ## feeds that settle and feeds that do not -/

def textField (value : PhotoStream.Json) : PhotoStream.Json := .object [("value", value)]

/-- An asset record that refers to the master "m". -/
def assetA : Record :=
  ⟨⟨"a", "CPLAsset", .object [("masterRef", textField (.object [("recordName", .string "m")])),
    ("assetDate", textField (.number "0"))]⟩, none⟩

def tombstoneA : Record := ⟨⟨"a", "", .null⟩, some true⟩

def masterM : Record := ⟨⟨"m", "CPLMaster", .null⟩, none⟩

def deletedM : Record :=
  ⟨⟨"m", "CPLMaster", .object [("isDeleted", textField (.number "1"))]⟩, none⟩

theorem lastCopy_assetA {before after : List Record} {copy : Record}
    (h : [assetA, masterM] = before ++ copy :: after) (hcopy : copy.isCopy "a" = true) :
    before = [] ∧ copy = assetA ∧ after = [masterM] := by
  rcases before with _ | ⟨first, _ | ⟨second, rest⟩⟩
  · simp_all
  · obtain ⟨-, rfl, -⟩ : assetA = first ∧ masterM = copy ∧ [] = after := by simpa using h
    exact absurd hcopy (by decide +kernel)
  · simp at h

/-- An asset whose master comes on the next page is settled. -/
theorem feed_settled_paired : Settled plainHost "a" [[assetA], [masterM]] := by
  have hname {a : String} (h : IsAssetName a [[assetA], [masterM]].flatten) : a = "a" := by
    obtain ⟨r, hr, rfl, htype⟩ := h
    obtain rfl | rfl : r = assetA ∨ r = masterM := by simpa using hr
    · rfl
    · exact absurd htype (by decide)
  refine (feed_settled_iff_of_prompt (fun a ha => ?_)).mpr (fun a ha => ?_) "a"
    ⟨assetA, by simp, rfl, rfl⟩
  · obtain rfl := hname ha
    refine ⟨fun before next after hsplit hcopy name _ hwaits => ?_,
      fun before copy after hlast => ?_⟩
    · obtain ⟨rfl, -, -⟩ := lastCopy_assetA hsplit hcopy
      exact absurd rfl hwaits
    · obtain ⟨rfl, rfl, rfl⟩ := lastCopy_assetA hlast.split hlast.isCopy
      decide +kernel
  · obtain rfl := hname ha
    intro before copy after hlast
    obtain ⟨rfl, rfl, rfl⟩ := lastCopy_assetA hlast.split hlast.isCopy
    decide +kernel

/-- An asset that is deleted while its copy waits is made again by the flush, and an asset whose
master is deleted after they were paired stays made. -/
theorem feed_not_settled :
    (¬ ∀ a, IsAssetName a [[assetA], [tombstoneA]].flatten →
        Settled plainHost a [[assetA], [tombstoneA]]) ∧
      ¬ ∀ a, IsAssetName a [[masterM, assetA], [deletedM]].flatten →
        Settled plainHost a [[masterM, assetA], [deletedM]] := by
  constructor
  · intro h
    have hname : IsAssetName "a" [[assetA], [tombstoneA]].flatten := ⟨assetA, by simp, rfl, rfl⟩
    have hlast := (h "a" hname).last (inOrder)
    have hgot : (reasonsFor "a" (changeEvents plainHost (inOrder)
        [[assetA], [tombstoneA]])).getLast? = some .created := by decide +kernel
    have hexpected : expectedReason "a" [assetA, tombstoneA] = some .hardDeleted := by
      decide +kernel
    exact ChangeReason.noConfusion (Option.some.inj (hgot.symm.trans (hlast.trans hexpected)))
  · intro h
    have hname : IsAssetName "a" [[masterM, assetA], [deletedM]].flatten :=
      ⟨assetA, by simp, rfl, rfl⟩
    have hlast := (h "a" hname).last (inOrder)
    have hgot : (reasonsFor "a" (changeEvents plainHost (inOrder)
        [[masterM, assetA], [deletedM]])).getLast? = some .created := by decide +kernel
    have hexpected : expectedReason "a" [masterM, assetA, deletedM] = some .softDeleted := by
      decide +kernel
    exact ChangeReason.noConfusion (Option.some.inj (hgot.symm.trans (hlast.trans hexpected)))

end Kei.Changes
