import Kei.PhotoStream.Fetcher
import Mathlib.Algebra.BigOperators.Group.Finset.Piecewise
import Mathlib.Algebra.Order.BigOperators.Group.Finset

/-!
# Kei.PhotoStream.Coverage

What the token of a photo stream says about the records of its pages.

`Known` relates the state that the fetchers share to the log of their calls.
A token needs as many reports as there are fetchers, and a fetcher reports
at most once: each of them has reported, and reported the proven end of its
range.  The record of a page then was claimed by some fetcher, which sent it,
or it waits at the boundary of two ranges.
-/

namespace Kei.PhotoStream

open Proc Pool

abbrev PoolLog := List (Nat × Event Op Resp)

/-! ## the shared state and the log -/

structure Known (fetchers : Nat) (log : PoolLog) (s : Shared) : Prop where
  owners : ∀ name owner, s.rangeRecordOwners name = some owner →
    ∃ i, (i, claimEvent name owner true) ∈ log
  refused : ∀ i name start, (i, claimEvent name start false) ∈ log →
    ∃ j owner, (j, claimEvent name owner true) ∈ log
  delivered : ∀ i item, (i, sendEvent item true) ∈ log → item ∈ s.stream
  sent : ∀ item ∈ s.stream, ∃ i, (i, sendEvent item true) ∈ log
  observed : s.capture.observations = completesOf (log.map (·.2))
  completed : s.capture.completedFetchers = s.capture.observations.length
  expected : s.capture.expectedFetchers = fetchers
  indices : ∀ e ∈ log, e.1 < fetchers

variable {fetchers : Nat} {log : PoolLog} {s : Shared} {i : Nat}

theorem Known.snoc {s' : Shared} (h : Known fetchers log s) (hi : i < fetchers) (e : Event Op Resp)
    (howners : ∀ name owner, s'.rangeRecordOwners name = some owner →
      s.rangeRecordOwners name = some owner ∨ e = claimEvent name owner true)
    (hrefused : ∀ name start, e = claimEvent name start false →
      ∃ owner, s.rangeRecordOwners name = some owner)
    (hstream : ∀ item, item ∈ s'.stream ↔ item ∈ s.stream ∨ e = sendEvent item true)
    (hobserved : s'.capture.observations = s.capture.observations ++ (completeOf e).toList)
    (hcompleted : s'.capture.completedFetchers =
      s.capture.completedFetchers + (completeOf e).toList.length)
    (hexpected : s'.capture.expectedFetchers = s.capture.expectedFetchers) :
    Known fetchers (log ++ [(i, e)]) s' := by
  have hlast {j : Nat} {e' : Event Op Resp} (hmem : (j, e') ∈ log ++ [(i, e)]) :
      (j, e') ∈ log ∨ e = e' := by
    rcases List.mem_append.mp hmem with hold | hnew
    · exact .inl hold
    · exact .inr (congrArg Prod.snd (List.mem_singleton.mp hnew)).symm
  have hhere : (i, e) ∈ log ++ [(i, e)] := List.mem_append_right _ (List.mem_singleton.mpr rfl)
  refine ⟨?_, ?_, ?_, ?_, ?_, ?_, hexpected.trans h.expected, ?_⟩
  · intro name owner howner
    rcases howners name owner howner with hold | rfl
    · obtain ⟨j, hj⟩ := h.owners name owner hold
      exact ⟨j, List.mem_append_left _ hj⟩
    · exact ⟨i, hhere⟩
  · intro j name start hmem
    rcases hlast hmem with hold | heq
    · obtain ⟨k, owner, hk⟩ := h.refused j name start hold
      exact ⟨k, owner, List.mem_append_left _ hk⟩
    · obtain ⟨owner, howner⟩ := hrefused name start heq
      obtain ⟨k, hk⟩ := h.owners name owner howner
      exact ⟨k, owner, List.mem_append_left _ hk⟩
  · intro j item hmem
    exact (hstream item).mpr ((hlast hmem).imp_left (h.delivered j item))
  · intro item hmem
    rcases (hstream item).mp hmem with hold | rfl
    · obtain ⟨j, hj⟩ := h.sent item hold
      exact ⟨j, List.mem_append_left _ hj⟩
    · exact ⟨i, hhere⟩
  · rw [hobserved, List.map_append, completesOf_append, h.observed]
    cases hcomplete : completeOf e <;> simp [completesOf, hcomplete]
  · rw [hcompleted, hobserved, h.completed, List.length_append]
  · intro e' hmem
    rcases List.mem_append.mp hmem with hold | hnew
    · exact h.indices e' hold
    · rw [List.mem_singleton.mp hnew]
      exact hi

theorem Known.quiet (h : Known fetchers log s) (hi : i < fetchers) (e : Event Op Resp)
    (hrefused : ∀ name start, e ≠ claimEvent name start false)
    (hsend : ∀ item, e ≠ sendEvent item true) (hcomplete : completeOf e = none) :
    Known fetchers (log ++ [(i, e)]) s := by
  refine h.snoc hi e (fun _ _ howner => .inl howner)
    (fun name start heq => absurd heq (hrefused name start))
    (fun item => ⟨.inl, fun hmem => hmem.resolve_right (hsend item)⟩) ?_ ?_ rfl
  · rw [hcomplete]
    simp
  · rw [hcomplete]
    rfl

theorem Known.claim (h : Known fetchers log s) (hi : i < fetchers) (name : String) (start : Nat) :
    Known fetchers (log ++ [(i, claimEvent name start (s.claim name start).1)])
      (s.claim name start).2 := by
  unfold Shared.claim
  cases howner : s.rangeRecordOwners name with
  | some owner =>
      refine h.snoc hi _ (fun _ _ howner => .inl howner) (fun name' start' heq => ?_)
        (fun item => ⟨.inl, fun hmem => hmem.resolve_right claimEvent_ne_sendEvent⟩)
        (List.append_nil _).symm rfl rfl
      obtain ⟨rfl, -, -⟩ := claimEvent_inj.mp heq
      exact ⟨owner, howner⟩
  | none =>
      refine h.snoc hi _ (fun name' owner howner' => ?_) (fun name' start' heq => ?_)
        (fun item => ⟨.inl, fun hmem => hmem.resolve_right claimEvent_ne_sendEvent⟩)
        (List.append_nil _).symm rfl rfl
      · by_cases hname : name' = name
        · have hstart : start = owner := by simpa [hname] using howner'
          exact .inr (claimEvent_inj.mpr ⟨hname.symm, hstart, rfl⟩)
        · left
          simpa [hname] using howner'
      · have hfalse := (claimEvent_inj.mp heq).2.2
        contradiction

theorem Known.send (h : Known fetchers log s) (hi : i < fetchers) (item : StreamItem) :
    Known fetchers (log ++ [(i, sendEvent item true)]) { s with stream := s.stream ++ [item] } := by
  refine h.snoc hi _ (fun _ _ howner => .inl howner)
    (fun _ _ heq => absurd heq sendEvent_ne_claimEvent) (fun item' => ?_)
    (List.append_nil _).symm rfl rfl
  rw [List.mem_append, List.mem_singleton, sendEvent_inj]
  simp [eq_comm]

theorem known_step (h : Known fetchers log s) (hi : i < fetchers) (op : Op) (c : Choice) :
    Known fetchers (log ++ [(i, ⟨op, (answer s op c).1⟩)]) (answer s op c).2 := by
  obtain ⟨closed, delivered, poisoned, reply⟩ := c
  cases op with
  | isClosed => exact h.quiet hi _ (fun _ _ heq => by cases heq) (fun _ heq => by cases heq) rfl
  | post offset => exact h.quiet hi _ (fun _ _ heq => by cases heq) (fun _ heq => by cases heq) rfl
  | claim name start =>
      cases poisoned with
      | true => exact h.quiet hi (claimEvent name start true) (by simp) (by simp) rfl
      | false => exact h.claim hi name start
  | send item =>
      cases delivered with
      | true => exact h.send hi item
      | false => exact h.quiet hi (sendEvent item false) (by simp) (by simp) rfl
  | suppress =>
      exact h.snoc hi _ (fun _ _ howner => .inl howner) (fun _ _ heq => by cases heq)
        (fun item => ⟨.inl, fun hmem => hmem.resolve_right (fun heq => by cases heq)⟩)
        (List.append_nil _).symm rfl rfl
  | complete token completion =>
      exact h.snoc hi _ (fun _ _ howner => .inl howner) (fun _ _ heq => by cases heq)
        (fun item => ⟨.inl, fun hmem => hmem.resolve_right (fun heq => by cases heq)⟩) rfl rfl rfl

/-! ## the stream of a request -/

/-- The stream after the calls of a schedule. -/
abbrev photoStream (host : Host) (fuel defaultPageSize : Nat) (request : StreamRequest)
    (schedule : List (Nat × Choice)) : Pool Op Resp Shared FetchState :=
  run answer (photoStreamInner host fuel defaultPageSize request) schedule

theorem known_photoStream (host : Host) (fuel defaultPageSize : Nat) (request : StreamRequest)
    (schedule : List (Nat × Choice)) :
    Known (request.ranges defaultPageSize).length
      (photoStream host fuel defaultPageSize request schedule).log
      (photoStream host fuel defaultPageSize request schedule).shared := by
  refine run_invariant ?_ (fun log s i op c hi h => ?_) schedule
  · refine ⟨?_, ?_, ?_, ?_, rfl, rfl, rfl, ?_⟩ <;> simp [photoStreamInner]
  · have hlength : i < (request.ranges defaultPageSize).length := by
      simpa [photoStreamInner] using hi
    exact known_step h hlength op c

/-- What the fetchers of a request have in common. -/
def StreamRequest.behavior (request : StreamRequest) (defaultPageSize : Nat) : FetcherBehavior :=
  { pageSize := request.profile.requestPageSize defaultPageSize,
    preserveBlankSyncTokensForDiagnostics := request.preserveBlankSyncTokensForDiagnostics,
    allowUnpairedAtRangeBoundary := 1 < (request.ranges defaultPageSize).length,
    treatEmptyTailAsError := request.treatEmptyTailAsError }

variable {range : FetcherRange}

theorem dataRange_limit {total chunkSizeItems i : Nat}
    (h : dataRange total chunkSizeItems i = some range) : range.limit = none := by
  unfold dataRange at h
  dsimp only at h
  split at h
  · cases h
    rfl
  · contradiction

theorem ranges_role {limit totalCount : Option Nat} {pageSize : Nat} {profile : PhotoStreamProfile}
    (h : range ∈ buildEnumerationPlan limit totalCount pageSize profile)
    (hlimit : range.limit.isSome = true) : range.role = .limitProbe := by
  unfold buildEnumerationPlan at h
  split at h
  · rw [List.mem_singleton.mp h]
  · rw [List.mem_singleton.mp h] at hlimit
    contradiction
  · split at h
    · rw [List.mem_singleton.mp h] at hlimit
      contradiction
    · rcases List.mem_append.mp h with hdata | htail
      · obtain ⟨i, -, hi⟩ := List.mem_filterMap.mp hdata
        rw [dataRange_limit hi] at hlimit
        contradiction
      · rw [List.mem_singleton.mp htail] at hlimit
        contradiction

theorem fetcher_steps {host : Host} {fuel defaultPageSize : Nat} {request : StreamRequest}
    {schedule : List (Nat × Choice)} {i : Nat} {range : FetcherRange}
    (hrange : (request.ranges defaultPageSize)[i]? = some range) :
    ∃ q, (photoStream host fuel defaultPageSize request schedule).procs[i]? = some q ∧
      Steps (spawnFetcher host fuel (request.behavior defaultPageSize) range)
        (eventsOf i (photoStream host fuel defaultPageSize request schedule).log) q := by
  refine run_steps rfl ?_ schedule
  have hprocs : (photoStreamInner host fuel defaultPageSize request).procs =
      (request.ranges defaultPageSize).map
        (spawnFetcher host fuel (request.behavior defaultPageSize)) := rfl
  rw [hprocs, List.getElem?_map, hrange]
  rfl

/-! ## counting reports -/

theorem completesOf_length (h : ∀ e ∈ log, e.1 < fetchers) :
    (completesOf (log.map (·.2))).length =
      ∑ i ∈ Finset.range fetchers, (completesOf (eventsOf i log)).length := by
  induction log using List.reverseRecOn with
  | nil => simp [completesOf, eventsOf]
  | append_singleton log e ih =>
      have hlog : ∀ e' ∈ log, e'.1 < fetchers := fun e' he' => h e' (List.mem_append_left _ he')
      have he : e.1 < fetchers := h e (List.mem_append_right _ (List.mem_singleton.mpr rfl))
      have hone (i : Nat) : (completesOf (eventsOf i (log ++ [e]))).length =
          (completesOf (eventsOf i log)).length +
            if e.1 = i then (completesOf [e.2]).length else 0 := by
        rw [eventsOf_snoc, completesOf_append, List.length_append]
        split <;> rfl
      have hsum : ∑ i ∈ Finset.range fetchers,
          (if e.1 = i then (completesOf [e.2]).length else 0) = (completesOf [e.2]).length := by
        rw [Finset.sum_ite_eq, if_pos (Finset.mem_range.mpr he)]
      simp only [hone, Finset.sum_add_distrib]
      rw [List.map_append, completesOf_append, List.length_append, ih hlog, hsum]
      rfl

theorem each_reported (h : ∀ e ∈ log, e.1 < fetchers)
    (hcount : (completesOf (log.map (·.2))).length = fetchers)
    (hmost : ∀ i < fetchers, (completesOf (eventsOf i log)).length ≤ 1) (hi : i < fetchers) :
    completesOf (eventsOf i log) ≠ [] := by
  intro hnone
  have hless : ∑ j ∈ Finset.range fetchers, (completesOf (eventsOf j log)).length <
      ∑ j ∈ Finset.range fetchers, 1 := by
    refine Finset.sum_lt_sum (fun j hj => hmost j (Finset.mem_range.mp hj))
      ⟨i, Finset.mem_range.mpr hi, ?_⟩
    rw [hnone]
    exact Nat.zero_lt_one
  rw [← completesOf_length h, hcount, ← Finset.card_eq_sum_ones,
    Finset.card_range] at hless
  exact lt_irrefl _ hless

variable {token : String}

theorem resolve_spec {capture : FetcherSyncTokenCapture} (h : capture.resolve = some token) :
    capture.completedFetchers = capture.expectedFetchers ∧
      ∀ o ∈ capture.observations, o.2 = .provenEof := by
  unfold FetcherSyncTokenCapture.resolve at h
  split at h
  · contradiction
  · split at h
    · contradiction
    · next hcount =>
        split at h
        · contradiction
        · next hincomplete =>
            split at h
            · contradiction
            · next hbound =>
                refine ⟨by simpa using hcount, fun o ho => ?_⟩
                simp only [List.any_eq_true, not_exists, not_and] at hincomplete hbound
                have hincomplete := hincomplete o ho
                have hbound := hbound o ho
                cases hcompletion : o.2 with
                | provenEof => rfl
                | userBoundReached =>
                    rw [hcompletion] at hbound
                    simp at hbound
                | incomplete failure =>
                    rw [hcompletion] at hincomplete
                    simp at hincomplete

/-! ## the token -/

variable (host : Host) (fuel defaultPageSize : Nat) (request : StreamRequest)
  (schedule : List (Nat × Choice))

/-- A fetcher reports at most once, and a proven end when it is done. -/
theorem fetcher_report (hrange : (request.ranges defaultPageSize)[i]? = some range) :
    (completesOf (eventsOf i
        (photoStream host fuel defaultPageSize request schedule).log)).length ≤ 1 ∧
      ∀ o ∈ completesOf (eventsOf i
          (photoStream host fuel defaultPageSize request schedule).log), o.2 = .provenEof →
        ∃ st, (photoStream host fuel defaultPageSize request schedule).procs[i]? =
            some (.ret st) ∧
          Proven range (request.behavior defaultPageSize)
            (eventsOf i (photoStream host fuel defaultPageSize request schedule).log) st := by
  obtain ⟨q, hq, hsteps⟩ : ∃ q,
      (photoStream host fuel defaultPageSize request schedule).procs[i]? = some q ∧
        Steps (spawnFetcher host fuel (request.behavior defaultPageSize) range)
          (eventsOf i (photoStream host fuel defaultPageSize request schedule).log) q :=
    fetcher_steps hrange
  have hrole := ranges_role (List.mem_of_getElem? hrange)
  rcases spawnFetcher_steps hrole hsteps with hnone | ⟨reported, c, hone, hproven⟩
  · rw [hnone]
    exact ⟨Nat.zero_le 1, fun o ho => absurd ho List.not_mem_nil⟩
  · rw [hone]
    refine ⟨le_refl 1, fun o ho hc => ?_⟩
    rw [List.mem_singleton.mp ho] at hc
    obtain ⟨st, rfl, hst⟩ := hproven hc
    exact ⟨st, hq, hst⟩

theorem resolve_proven
    (h : (photoStream host fuel defaultPageSize request schedule).shared.capture.resolve =
      some token) (hrange : (request.ranges defaultPageSize)[i]? = some range) :
    ∃ st, (photoStream host fuel defaultPageSize request schedule).procs[i]? = some (.ret st) ∧
      Proven range (request.behavior defaultPageSize)
        (eventsOf i (photoStream host fuel defaultPageSize request schedule).log) st := by
  have hknown := known_photoStream host fuel defaultPageSize request schedule
  have hreport : ∀ {j : Nat} {range' : FetcherRange},
      (request.ranges defaultPageSize)[j]? = some range' → _ :=
    fun {j range'} => fetcher_report host fuel defaultPageSize request schedule
  obtain ⟨hcompleted, hproven⟩ := resolve_spec h
  rw [hknown.completed, hknown.observed, hknown.expected] at hcompleted
  rw [hknown.observed] at hproven
  have hmost : ∀ j < (request.ranges defaultPageSize).length, (completesOf (eventsOf j
      (photoStream host fuel defaultPageSize request schedule).log)).length ≤ 1 := by
    intro j hj
    exact (hreport (List.getElem?_eq_getElem hj)).1
  have hi : i < (request.ranges defaultPageSize).length := (List.getElem?_eq_some_iff.mp hrange).1
  obtain ⟨o, ho⟩ := List.exists_mem_of_ne_nil _ (each_reported hknown.indices hcompleted hmost hi)
  refine (hreport hrange).2 o ho (hproven o ?_)
  obtain ⟨e, he, hcomplete⟩ := List.mem_filterMap.mp ho
  exact List.mem_filterMap.mpr ⟨e, List.mem_map_of_mem (mem_eventsOf.mp he), hcomplete⟩

theorem range_of_log {e : Event Op Resp}
    (h : (i, e) ∈ (photoStream host fuel defaultPageSize request schedule).log) :
    ∃ range, (request.ranges defaultPageSize)[i]? = some range := by
  have hi := (known_photoStream host fuel defaultPageSize request schedule).indices _ h
  exact ⟨_, List.getElem?_eq_getElem hi⟩

theorem owned_emitted
    (h : (photoStream host fuel defaultPageSize request schedule).shared.capture.resolve =
      some token) {name : String} {owner : Nat} (howner : (i, claimEvent name owner true) ∈
      (photoStream host fuel defaultPageSize request schedule).log) :
    ∃ master asset stateId, asset.recordName = name ∧ StreamItem.asset master asset stateId ∈
      (photoStream host fuel defaultPageSize request schedule).shared.stream := by
  obtain ⟨range, hrange⟩ := range_of_log host fuel defaultPageSize request schedule howner
  obtain ⟨st, -, hproven⟩ := resolve_proven host fuel defaultPageSize request schedule h hrange
  have hclaim := mem_eventsOf.mpr howner
  have hstart : owner = range.start := hproven.starts _ _ _ hclaim
  subst hstart
  obtain ⟨master, asset, stateId, hname, hsent⟩ := hproven.sent name hclaim
  exact ⟨master, asset, stateId, hname,
    (known_photoStream host fuel defaultPageSize request schedule).delivered i _
      (mem_eventsOf.mp hsent)⟩

/-- **A token covers the records of every page.**  An asset record with a master was given to the
consumer, or it still waits for its master where a stream of several ranges was cut; nothing was
reported as an error, and a stream of one range leaves nothing unpaired. -/
theorem resolve_covers_pages {token : String}
    (h : (photoStream host fuel defaultPageSize request schedule).shared.capture.resolve =
      some token) :
    (∀ i offset syncToken records,
      (i, ⟨.post offset, .page syncToken records⟩) ∈
          (photoStream host fuel defaultPageSize request schedule).log →
        ∀ rec ∈ records, rec.recordType = "CPLAsset" → ∀ id, rec.masterRef = some id →
          (∃ master asset stateId, asset.recordName = rec.recordName ∧
            StreamItem.asset master asset stateId ∈
              (photoStream host fuel defaultPageSize request schedule).shared.stream) ∨
          1 < (request.ranges defaultPageSize).length ∧
            ∃ st, (photoStream host fuel defaultPageSize request schedule).procs[i]? =
              some (.ret st) ∧ (id, rec) ∈ st.pendingAssets) ∧
    (∀ i message ok, (i, ⟨.send (.error message), ok⟩) ∉
      (photoStream host fuel defaultPageSize request schedule).log) ∧
    ((request.ranges defaultPageSize).length = 1 →
      ∃ st, (photoStream host fuel defaultPageSize request schedule).procs[0]? = some (.ret st) ∧
        st.pendingMasters = [] ∧ st.pendingAssets = []) := by
  have hknown := known_photoStream host fuel defaultPageSize request schedule
  refine ⟨?_, ?_, ?_⟩
  · intro i offset syncToken records hpage rec hrec htype id hid
    obtain ⟨range, hrange⟩ := range_of_log host fuel defaultPageSize request schedule hpage
    obtain ⟨st, hst, hproven⟩ := resolve_proven host fuel defaultPageSize request schedule h hrange
    have hreceived : rec ∈ received
        (eventsOf i (photoStream host fuel defaultPageSize request schedule).log) :=
      List.mem_flatMap.mpr ⟨_, mem_eventsOf.mpr hpage, hrec⟩
    rcases hproven.covered rec hreceived htype id hid with ⟨b, hclaim⟩ | ⟨hallow, hwaits⟩
    · left
      cases b with
      | true =>
          exact owned_emitted host fuel defaultPageSize request schedule h (mem_eventsOf.mp hclaim)
      | false =>
          obtain ⟨j, owner, howner⟩ := hknown.refused i _ _ (mem_eventsOf.mp hclaim)
          exact owned_emitted host fuel defaultPageSize request schedule h howner
    · exact .inr ⟨of_decide_eq_true hallow, st, hst, hwaits⟩
  · intro i message ok hsend
    obtain ⟨range, hrange⟩ := range_of_log host fuel defaultPageSize request schedule hsend
    obtain ⟨st, -, hproven⟩ := resolve_proven host fuel defaultPageSize request schedule h hrange
    exact hproven.clean message ok (mem_eventsOf.mpr hsend)
  · intro hone
    have hrange := List.getElem?_eq_getElem (hone ▸ Nat.zero_lt_one :
      0 < (request.ranges defaultPageSize).length)
    obtain ⟨st, hst, hproven⟩ := resolve_proven host fuel defaultPageSize request schedule h hrange
    refine ⟨st, hst, hproven.paired ?_⟩
    simp [StreamRequest.behavior, hone]

/-! ## three streams -/

/-- Every pair makes an asset, and maps keep their order. -/
def plainHost : Host where
  tryFromRecords _ _ := none
  keyOrder keys := keys
  keyOrder_perm keys := List.Perm.refl keys
  firstKey keys := keys.head?

def waitingAsset : Record :=
  ⟨"a", "CPLAsset", .object [("masterRef",
    .object [("value", .object [("recordName", .string "m")])])]⟩

def itsMaster : Record := ⟨"m", "CPLMaster", .object []⟩

def strayAsset : Record := ⟨"b", "CPLAsset", .object []⟩

def oneRange : StreamRequest := ⟨none, none, .backpressuredDownload 1, false, false⟩

def twoRanges : StreamRequest := ⟨none, some 1, .fastEnumeration 2, false, false⟩

/-- The fetcher asks, and gets the page. -/
def turn (i : Nat) (syncToken : Option String) (records : List Record) : List (Nat × Choice) :=
  [(i, ⟨false, true, false, .page syncToken records⟩),
    (i, ⟨false, true, false, .page syncToken records⟩)]

def emptyTurns (i n : Nat) : List (Nat × Choice) := (List.replicate n (turn i none [])).flatten

def pairedSchedule : List (Nat × Choice) :=
  turn 0 (some "t") [itsMaster, waitingAsset] ++ emptyTurns 0 8

/-- The asset on the page with the token is sent. -/
theorem resolve_covers_pages_paired :
    (photoStream plainHost 9 1 oneRange pairedSchedule).shared.capture.resolve = some "t" ∧
      ∃ master asset stateId, asset.recordName = "a" ∧ StreamItem.asset master asset stateId ∈
        (photoStream plainHost 9 1 oneRange pairedSchedule).shared.stream := by
  have htoken : (photoStream plainHost 9 1 oneRange pairedSchedule).shared.capture.resolve =
      some "t" := by decide +kernel
  have hpage : (photoStream plainHost 9 1 oneRange pairedSchedule).log[1]? =
      some (0, ⟨.post 0, .page (some "t") [itsMaster, waitingAsset]⟩) := rfl
  refine ⟨htoken, ?_⟩
  rcases (resolve_covers_pages plainHost 9 1 oneRange pairedSchedule htoken).1 0 0 (some "t")
    [itsMaster, waitingAsset] (List.mem_of_getElem? hpage) waitingAsset (by simp) rfl "m"
    (by decide +kernel) with hemitted | ⟨hranges, -⟩
  · exact hemitted
  · exact absurd hranges (by decide +kernel)

/-- The asset is on the last page of the counted range, and its master nowhere. -/
def splitSchedule : List (Nat × Choice) :=
  turn 0 (some "t") [waitingAsset] ++ turn 0 none [] ++ emptyTurns 1 6

/-- The asset names no master. -/
def straySchedule : List (Nat × Choice) := turn 0 (some "t") [strayAsset] ++ emptyTurns 0 6

/-- A token although the asset record of a page was never emitted: the record waits at the
boundary of two ranges, or it names no master. -/
theorem token_without_emission :
    ((photoStream plainHost 9 1 twoRanges splitSchedule).shared.capture.resolve = some "t" ∧
      (0, ⟨.post 0, .page (some "t") [waitingAsset]⟩) ∈
        (photoStream plainHost 9 1 twoRanges splitSchedule).log ∧
      waitingAsset.recordType = "CPLAsset" ∧
      (photoStream plainHost 9 1 twoRanges splitSchedule).shared.stream = []) ∧
    ((photoStream plainHost 9 1 oneRange straySchedule).shared.capture.resolve = some "t" ∧
      (0, ⟨.post 0, .page (some "t") [strayAsset]⟩) ∈
        (photoStream plainHost 9 1 oneRange straySchedule).log ∧
      strayAsset.recordType = "CPLAsset" ∧
      (photoStream plainHost 9 1 oneRange straySchedule).shared.stream = []) := by
  have hsplit : (photoStream plainHost 9 1 twoRanges splitSchedule).log[1]? =
      some (0, ⟨.post 0, .page (some "t") [waitingAsset]⟩) := rfl
  have hstray : (photoStream plainHost 9 1 oneRange straySchedule).log[1]? =
      some (0, ⟨.post 0, .page (some "t") [strayAsset]⟩) := rfl
  exact ⟨⟨by decide +kernel, List.mem_of_getElem? hsplit, rfl, rfl⟩,
    by decide +kernel, List.mem_of_getElem? hstray, rfl, rfl⟩

end Kei.PhotoStream
