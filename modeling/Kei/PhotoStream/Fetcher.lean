import Kei.PhotoStream

/-!
# Kei.PhotoStream.Fetcher

One fetcher, with any answers to its calls.

`Tracks` says where the asset records of the pages are: claimed, waiting for
their master, or in hand.  Every step of a page keeps it, so a fetcher that
reports the proven end of its range has claimed every record that does not
wait, and has sent every record that it claimed for itself.
-/

namespace Kei.PhotoStream

open Proc

abbrev FTrace := Trace Op Resp

/-! ## what a trace says -/

def receivedOf (e : Event Op Resp) : List Record :=
  match e with
  | ⟨.post _, .page _ records⟩ => records
  | _ => []

/-- The records of the pages. -/
def received (t : FTrace) : List Record := t.flatMap receivedOf

def completeOf (e : Event Op Resp) : Option (Option String × EnumerationCompletion) :=
  match e.op with
  | .complete token completion => some (token, completion)
  | _ => none

/-- What was reported. -/
def completesOf (t : FTrace) : List (Option String × EnumerationCompletion) :=
  t.filterMap completeOf

def claimEvent (recordName : String) (rangeStart : Nat) (b : Bool) : Event Op Resp :=
  ⟨.claim recordName rangeStart, b⟩

def sendEvent (item : StreamItem) (ok : Bool) : Event Op Resp := ⟨.send item, ok⟩

variable {b b' : Bool}

@[simp] theorem claimEvent_inj {n n' : String} {s s' : Nat} :
    claimEvent n s b = claimEvent n' s' b' ↔ n = n' ∧ s = s' ∧ b = b' := by
  constructor
  · intro h
    cases h
    exact ⟨rfl, rfl, rfl⟩
  · rintro ⟨rfl, rfl, rfl⟩
    rfl

@[simp] theorem sendEvent_inj {i i' : StreamItem} :
    sendEvent i b = sendEvent i' b' ↔ i = i' ∧ b = b' := by
  constructor
  · intro h
    cases h
    exact ⟨rfl, rfl⟩
  · rintro ⟨rfl, rfl⟩
    rfl

@[simp] theorem claimEvent_ne_sendEvent {n : String} {s : Nat} {i : StreamItem} :
    claimEvent n s b ≠ sendEvent i b' := by
  intro h
  cases h

@[simp] theorem sendEvent_ne_claimEvent {n : String} {s : Nat} {i : StreamItem} :
    sendEvent i b' ≠ claimEvent n s b := by
  intro h
  cases h

/-- The range asked for the record. -/
def Claimed (range : FetcherRange) (t : FTrace) (name : String) : Prop :=
  ∃ b, claimEvent name range.start b ∈ t

/-- The range owns the record. -/
def Mine (range : FetcherRange) (t : FTrace) (name : String) : Prop :=
  claimEvent name range.start true ∈ t

/-- The consumer was given an asset of that name. -/
def Sent (t : FTrace) (name : String) : Prop :=
  ∃ master asset stateId, asset.recordName = name ∧
    sendEvent (.asset master asset stateId) true ∈ t

/-- No error was sent. -/
def Clean (t : FTrace) : Prop := ∀ message ok, sendEvent (.error message) ok ∉ t

variable {range : FetcherRange} {behavior : FetcherBehavior} {host : Host} {t : FTrace}
  {name : String}

theorem Claimed.append_left (h : Claimed range t name) (t' : FTrace) :
    Claimed range (t ++ t') name := by
  obtain ⟨b, hb⟩ := h
  exact ⟨b, List.mem_append_left t' hb⟩

theorem Claimed.append_right (t' : FTrace) (h : Claimed range t name) :
    Claimed range (t' ++ t) name := by
  obtain ⟨b, hb⟩ := h
  exact ⟨b, List.mem_append_right t' hb⟩

theorem Sent.append_left (h : Sent t name) (t' : FTrace) : Sent (t ++ t') name := by
  obtain ⟨master, asset, stateId, hname, hmem⟩ := h
  exact ⟨master, asset, stateId, hname, List.mem_append_left t' hmem⟩

theorem Sent.append_right (t' : FTrace) (h : Sent t name) : Sent (t' ++ t) name := by
  obtain ⟨master, asset, stateId, hname, hmem⟩ := h
  exact ⟨master, asset, stateId, hname, List.mem_append_right t' hmem⟩

theorem completesOf_append (t t' : FTrace) :
    completesOf (t ++ t') = completesOf t ++ completesOf t' := List.filterMap_append

theorem received_append (t t' : FTrace) : received (t ++ t') = received t ++ received t' :=
  List.flatMap_append

/-! ## where the records are -/

/-- Every asset record of a page is claimed, waits for its master, or is in `hand`; what the
range owns was sent, unless the enumeration is incomplete or a limit was reached. -/
structure Tracks (range : FetcherRange) (hand : ByMaster) (t : FTrace) (st : FetchState) :
    Prop where
  starts : ∀ name start b, claimEvent name start b ∈ t → start = range.start
  noComplete : completesOf t = []
  seen : ∀ name ∈ st.emittedAssetRecords, Claimed range t name
  sent : st.enumerationIncomplete = false → st.limitReached = false →
    ∀ name, Mine range t name → Sent t name
  clean : st.enumerationIncomplete = false → Clean t
  covered : st.limitReached = false → ∀ rec ∈ received t, rec.recordType = "CPLAsset" →
    ∀ id, rec.masterRef = some id → Claimed range t rec.recordName ∨
      (id, rec) ∈ st.pendingAssets ∨ (id, rec) ∈ hand
  limited : st.limitReached = true → range.limit.isSome = true

/-- What a stretch of calls without pages and reports adds. -/
structure Adds (range : FetcherRange) (hand hand' : ByMaster) (chunk : FTrace)
    (st st' : FetchState) : Prop where
  starts : ∀ name start b, claimEvent name start b ∈ chunk → start = range.start
  noComplete : completesOf chunk = []
  noPage : received chunk = []
  seen : ∀ name ∈ st'.emittedAssetRecords,
    name ∈ st.emittedAssetRecords ∨ Claimed range chunk name
  incomplete : st'.enumerationIncomplete = false → st.enumerationIncomplete = false ∧ Clean chunk
  unlimited : st'.limitReached = false → st.limitReached = false
  sent : st'.enumerationIncomplete = false → st'.limitReached = false →
    ∀ name, Mine range chunk name → Sent chunk name
  covered : st'.limitReached = false → ∀ id rec,
    (id, rec) ∈ st.pendingAssets ∨ (id, rec) ∈ hand →
      Claimed range chunk rec.recordName ∨ (id, rec) ∈ st'.pendingAssets ∨ (id, rec) ∈ hand'
  limited : st'.limitReached = true → st.limitReached = true ∨ range.limit.isSome = true

theorem Tracks.adds {hand hand' : ByMaster} {chunk : FTrace} {st st' : FetchState}
    (h : Tracks range hand t st) (hadds : Adds range hand hand' chunk st st') :
    Tracks range hand' (t ++ chunk) st' := by
  refine ⟨?_, ?_, ?_, ?_, ?_, ?_, ?_⟩
  · intro name start b hmem
    exact (List.mem_append.mp hmem).elim (h.starts name start b) (hadds.starts name start b)
  · rw [completesOf_append, h.noComplete, hadds.noComplete]
    rfl
  · intro name hmem
    rcases hadds.seen name hmem with hold | hnew
    · exact (h.seen name hold).append_left chunk
    · exact hnew.append_right t
  · intro hcomplete hlimit name hmine
    rcases List.mem_append.mp hmine with hold | hnew
    · exact (h.sent (hadds.incomplete hcomplete).1 (hadds.unlimited hlimit) name
        hold).append_left chunk
    · exact (hadds.sent hcomplete hlimit name hnew).append_right t
  · intro hcomplete message ok hmem
    obtain ⟨hold, hchunk⟩ := hadds.incomplete hcomplete
    exact (List.mem_append.mp hmem).elim (h.clean hold message ok) (hchunk message ok)
  · intro hlimit rec hrec htype id hid
    rw [received_append, hadds.noPage, List.append_nil] at hrec
    rcases h.covered (hadds.unlimited hlimit) rec hrec htype id hid with hclaimed | hwaits
    · exact .inl (hclaimed.append_left chunk)
    · rcases hadds.covered hlimit id rec hwaits with hclaimed | hwaits'
      · exact .inl (hclaimed.append_right t)
      · exact .inr hwaits'
  · intro hlimit
    exact (hadds.limited hlimit).elim h.limited id

theorem Tracks.move {hand hand' : ByMaster} {st st' : FetchState} (h : Tracks range hand t st)
    (hseen : st'.emittedAssetRecords = st.emittedAssetRecords)
    (hincomplete : st'.enumerationIncomplete = st.enumerationIncomplete)
    (hlimit : st'.limitReached = st.limitReached)
    (hmoved : ∀ id rec, (id, rec) ∈ st.pendingAssets ∨ (id, rec) ∈ hand →
      (id, rec) ∈ st'.pendingAssets ∨ (id, rec) ∈ hand') :
    Tracks range hand' t st' := by
  obtain ⟨hstarts, hnoComplete, hseen', hsent, hclean, hcovered, hlimited⟩ := h
  rw [← hincomplete] at hsent hclean
  rw [← hlimit] at hsent hcovered hlimited
  rw [← hseen] at hseen'
  refine ⟨hstarts, hnoComplete, hseen', hsent, hclean, fun hl rec hrec htype id hid => ?_, hlimited⟩
  exact (hcovered hl rec hrec htype id hid).imp_right (hmoved id rec)

/-! ## emission -/

theorem Tracks.take {id : String} {rec : Record} {hand : ByMaster} {chunk : FTrace}
    {st st' : FetchState} (h : Tracks range ((id, rec) :: hand) t st)
    (hclaimed : Claimed range chunk rec.recordName)
    (hstarts : ∀ name start b, claimEvent name start b ∈ chunk → start = range.start)
    (hnoComplete : completesOf chunk = []) (hnoPage : received chunk = [])
    (hseen : st'.emittedAssetRecords = st.emittedAssetRecords ∨
      st'.emittedAssetRecords = st.emittedAssetRecords ++ [rec.recordName])
    (hpending : st'.pendingAssets = st.pendingAssets)
    (hincomplete : st'.enumerationIncomplete = false →
      st.enumerationIncomplete = false ∧ Clean chunk)
    (hlimit : st'.limitReached = st.limitReached ∨
      st'.limitReached = true ∧ range.limit.isSome = true)
    (hsent : st'.enumerationIncomplete = false → st'.limitReached = false →
      ∀ name, Mine range chunk name → Sent chunk name) :
    Tracks range hand (t ++ chunk) st' := by
  refine h.adds ⟨hstarts, hnoComplete, hnoPage, ?_, hincomplete, ?_, hsent, ?_, ?_⟩
  · intro name hmem
    rcases hseen with heq | heq
    · rw [heq] at hmem
      exact .inl hmem
    · rw [heq, List.mem_append, List.mem_singleton] at hmem
      rcases hmem with hold | rfl
      · exact .inl hold
      · exact .inr hclaimed
  · intro hl
    rcases hlimit with heq | ⟨htrue, -⟩
    · rwa [heq] at hl
    · rw [htrue] at hl
      contradiction
  · intro _ id' rec' hwaits
    rw [hpending]
    rcases hwaits with hp | hhand
    · exact .inr (.inl hp)
    · rcases List.mem_cons.mp hhand with heq | hhand
      · cases heq
        exact .inl hclaimed
      · exact .inr (.inr hhand)
  · intro hl
    rcases hlimit with heq | ⟨-, hsome⟩
    · exact .inl (heq ▸ hl)
    · exact .inr hsome

/-- While pages are fetched, a report is the one before an early exit. -/
def Fetching (t : FTrace) : Prop :=
  completesOf t = [] ∨ ∃ failure, completesOf t = [(none, .incomplete failure)]

variable {st : FetchState} {hand : ByMaster}

theorem Tracks.fetching (h : Tracks range hand t st) : Fetching t := .inl h.noComplete

theorem fetching_snoc {e : Event Op Resp} (h : completesOf t = []) (he : completeOf e = none) :
    Fetching (t ++ [e]) := by
  left
  rw [completesOf_append, h]
  simp [completesOf, he]

theorem shouldEmitAssetRecord_spec {emitted : List String} {Q : Bool × List String → FTrace → Prop}
    (hnone : completesOf t = []) (hseen : name ∈ emitted → Q (false, emitted) t)
    (hclaim : ∀ b emitted', (emitted' = emitted ∨ emitted' = emitted ++ [name]) →
      Q (b, emitted') (t ++ [claimEvent name range.start b])) :
    wp Fetching Q (shouldEmitAssetRecord name range emitted) t := by
  have hafter (b : Bool) : Fetching (t ++ [claimEvent name range.start b]) :=
    fetching_snoc hnone rfl
  unfold shouldEmitAssetRecord
  split
  · refine wp_bind (wp_perform.mpr ⟨.inl hnone, fun b => ⟨hafter b, ?_⟩⟩)
    exact wp_ret.mpr ⟨hafter b, hclaim b emitted (.inl rfl)⟩
  · split
    · next hin => exact wp_ret.mpr ⟨.inl hnone, hseen hin⟩
    · refine wp_bind (wp_perform.mpr ⟨.inl hnone, fun b => ⟨hafter b, ?_⟩⟩)
      exact wp_ret.mpr ⟨hafter b, hclaim b _ (.inr rfl)⟩

theorem emitAssets_tracks {master : Record} {id : String}
    {assets : List (FullAssetStateId × Record)}
    (h : Tracks range (assets.map (fun a => (id, a.2)) ++ hand) t st) :
    wp Fetching (fun st' t' => Tracks range hand t' st' ∧ st'.stoppedForLimit = st.stoppedForLimit)
      (emitAssets host range master assets st) t := by
  induction assets generalizing t st with
  | nil => exact wp_ret.mpr ⟨h.fetching, h, rfl⟩
  | cons a rest ih =>
      obtain ⟨stateId, assetRec⟩ := a
      rw [emitAssets]
      refine wp_bind (shouldEmitAssetRecord_spec h.noComplete (fun hin => ?_)
        (fun b emitted hemitted => ?_))
      · -- emitted in this range before
        refine ih ?_
        have hclaimed := h.seen _ hin
        obtain ⟨hstarts, hnoComplete, hseen, hsent, hclean, hcovered, hlimited⟩ := h
        refine ⟨hstarts, hnoComplete, hseen, hsent, hclean, fun hl rec hrec htype id' hid => ?_,
          hlimited⟩
        rcases hcovered hl rec hrec htype id' hid with hc | hp | hhand
        · exact .inl hc
        · exact .inr (.inl hp)
        · rcases List.mem_cons.mp hhand with heq | hhand
          · left
            cases heq
            exact hclaimed
          · exact .inr (.inr hhand)
      · have hlimitAny (hlimit : range.limit.any (fun n => n ≤ st.totalSent) = true) :
            range.limit.isSome = true := by
          cases hrange : range.limit with
          | none =>
              rw [hrange] at hlimit
              contradiction
          | some n => rfl
        have hclaimed (chunk : FTrace) : Claimed range
            (claimEvent assetRec.recordName range.start b :: chunk) assetRec.recordName :=
          ⟨b, List.mem_cons_self⟩
        cases b with
        | false =>
            -- another range owns it
            have hnext : Tracks range (rest.map (fun a => (id, a.2)) ++ hand)
                (t ++ [claimEvent assetRec.recordName range.start false])
                { st with emittedAssetRecords := emitted } := by
              refine h.take (hclaimed []) ?_ rfl rfl hemitted rfl ?_ (.inl rfl) ?_
              · simp
              · exact fun hi => ⟨hi, by simp [Clean]⟩
              · simp [Mine]
            exact ih hnext
        | true =>
            simp only [if_true]
            split
            · next hlimit =>
                have hnext : Tracks range (rest.map (fun a => (id, a.2)) ++ hand)
                    (t ++ [claimEvent assetRec.recordName range.start true])
                    { st with emittedAssetRecords := emitted, limitReached := true } := by
                  refine h.take (hclaimed []) ?_ rfl rfl hemitted rfl ?_
                    (.inr ⟨rfl, hlimitAny hlimit⟩) (fun _ hl => by contradiction)
                  · simp
                  · exact fun hi => ⟨hi, by simp [Clean]⟩
                have hdropped : Tracks range hand
                    (t ++ [claimEvent assetRec.recordName range.start true])
                    { st with emittedAssetRecords := emitted, limitReached := true } := by
                  obtain ⟨hstarts, hnoComplete, hseen, hsent, hclean, -, hlimited⟩ := hnext
                  exact ⟨hstarts, hnoComplete, hseen, hsent, hclean,
                    fun hl => by contradiction, hlimited⟩
                exact wp_ret.mpr ⟨hnext.fetching, hdropped, rfl⟩
            · have hclaim : completesOf (t ++ [claimEvent assetRec.recordName range.start true]) =
                  [] := by
                rw [completesOf_append, h.noComplete]
                rfl
              unfold emitFullAsset
              refine wp_bind ?_
              cases htry : host.tryFromRecords master assetRec with
              | some error =>
                  refine wp_bind (wp_perform.mpr ⟨.inl hclaim, fun ok => ?_⟩)
                  refine ⟨fetching_snoc hclaim rfl, wp_ret.mpr ⟨fetching_snoc hclaim rfl, ?_⟩⟩
                  cases ok with
                  | false => exact wp_stop.mpr (fetching_snoc hclaim rfl)
                  | true =>
                      have hnext : Tracks range (rest.map (fun a => (id, a.2)) ++ hand)
                          (t ++ [claimEvent assetRec.recordName range.start true,
                            sendEvent (.error ("Malformed required CloudKit asset field: " ++
                              error)) true])
                          { st with
                            emittedAssetRecords := emitted,
                            enumerationIncomplete := true,
                            malformedRecord := true } := by
                        refine h.take (hclaimed _) ?_ rfl rfl hemitted rfl
                          (fun hi => by contradiction) (.inl rfl) (fun hi => by contradiction)
                        simp
                      rw [List.append_assoc]
                      exact ih hnext
              | none =>
                  refine wp_bind (wp_perform.mpr ⟨.inl hclaim, fun ok => ?_⟩)
                  refine ⟨fetching_snoc hclaim rfl, wp_ret.mpr ⟨fetching_snoc hclaim rfl, ?_⟩⟩
                  cases ok with
                  | false => exact wp_stop.mpr (fetching_snoc hclaim rfl)
                  | true =>
                      have hnext : Tracks range (rest.map (fun a => (id, a.2)) ++ hand)
                          (t ++ [claimEvent assetRec.recordName range.start true,
                            sendEvent (.asset master assetRec stateId) true])
                          { st with
                            emittedAssetRecords := emitted,
                            totalSent := st.totalSent + 1,
                            pageEmitted := st.pageEmitted + 1 } := by
                        refine h.take (hclaimed _) ?_ rfl rfl hemitted rfl ?_ (.inl rfl) ?_
                        · simp
                        · exact fun hi => ⟨hi, by simp [Clean]⟩
                        · intro _ _ name hmine
                          have hname : name = assetRec.recordName := by
                            simpa [Mine] using hmine
                          exact ⟨master, assetRec, stateId, hname.symm, by simp⟩
                      rw [List.append_assoc]
                      exact ih hnext

/-! ## pages -/

theorem mem_recordsOf_or_remove {m : ByMaster} {id : String} {rec : Record} (name : String)
    (h : (id, rec) ∈ m) : (id = name ∧ rec ∈ m.recordsOf name) ∨ (id, rec) ∈ m.remove name := by
  by_cases hid : id = name
  · refine .inl ⟨hid, List.mem_map.mpr ⟨(id, rec), List.mem_filter.mpr ⟨h, ?_⟩, rfl⟩⟩
    exact decide_eq_true hid
  · exact .inr (List.mem_filter.mpr ⟨h, decide_eq_true hid⟩)

theorem siblings_snd (id : String) (records : List Record) :
    (siblings records).map (fun a => (id, a.2)) = records.map (fun rec => (id, rec)) := by
  unfold siblings
  rw [List.map_map]
  have hcomp : ((fun a : FullAssetStateId × Record => (id, a.2)) ∘ fun entry : Record × Nat =>
      ((if 1 < records.length && 0 < entry.2 then FullAssetStateId.asset else .master), entry.1)) =
      (fun rec => (id, rec)) ∘ Prod.fst := rfl
  rw [hcomp, ← List.map_map, List.zipIdx_map_fst]

variable {pageAssets : ByMaster}

theorem placeMaster_tracks {master : Record} (h : Tracks range pageAssets t st) :
    wp Fetching (fun r t' => Tracks range r.2 t' r.1 ∧ r.1.stoppedForLimit = st.stoppedForLimit)
      (placeMaster host range behavior master st pageAssets) t := by
  unfold placeMaster
  dsimp only
  split
  · next hempty =>
      obtain ⟨hpending, hpage⟩ := List.append_eq_nil_iff.mp hempty
      have hmoved : Tracks range (pageAssets.remove master.recordName) t
          { st with
            pendingAssets := st.pendingAssets.remove master.recordName,
            pendingMasters := insertMaster st.pendingMasters master,
            offset := st.offset + 1 } := by
        refine h.move rfl rfl rfl (fun id rec hwaits => ?_)
        rcases hwaits with hp | hhand
        · rcases mem_recordsOf_or_remove master.recordName hp with ⟨-, hin⟩ | hrest
          · rw [hpending] at hin
            exact absurd hin List.not_mem_nil
          · exact .inl hrest
        · rcases mem_recordsOf_or_remove master.recordName hhand with ⟨-, hin⟩ | hrest
          · rw [hpage] at hin
            exact absurd hin List.not_mem_nil
          · exact .inr hrest
      exact wp_ret.mpr ⟨h.fetching, hmoved, rfl⟩
  · have hmoved : Tracks range
        ((siblings (st.pendingAssets.recordsOf master.recordName ++
          pageAssets.recordsOf master.recordName)).map (fun a => (master.recordName, a.2)) ++
            pageAssets.remove master.recordName) t
        { st with pendingAssets := st.pendingAssets.remove master.recordName } := by
      rw [siblings_snd]
      refine h.move rfl rfl rfl (fun id rec hwaits => ?_)
      simp only [List.mem_append, List.mem_map, Prod.mk.injEq]
      rcases hwaits with hp | hhand
      · rcases mem_recordsOf_or_remove master.recordName hp with ⟨hid, hin⟩ | hrest
        · exact .inr (.inl ⟨rec, .inl hin, hid.symm, rfl⟩)
        · exact .inl hrest
      · rcases mem_recordsOf_or_remove master.recordName hhand with ⟨hid, hin⟩ | hrest
        · exact .inr (.inl ⟨rec, .inr hin, hid.symm, rfl⟩)
        · exact .inr (.inr hrest)
    refine wp_bind (wp_mono (fun st' t' hst => ?_) (emitAssets_tracks hmoved))
    refine wp_ret.mpr ⟨hst.1.fetching, ?_, hst.2⟩
    exact hst.1.move rfl rfl rfl (fun _ _ hwaits => hwaits)

theorem placeMasters_tracks {masters : List Record} (h : Tracks range pageAssets t st) :
    wp Fetching (fun r t' => Tracks range r.2 t' r.1 ∧ r.1.stoppedForLimit = st.stoppedForLimit)
      (placeMasters host range behavior masters st pageAssets) t := by
  induction masters generalizing t st pageAssets with
  | nil => exact wp_ret.mpr ⟨h.fetching, h, rfl⟩
  | cons master rest ih =>
      rw [placeMasters]
      refine wp_bind (wp_mono (fun r t' hr => ?_) (placeMaster_tracks h))
      obtain ⟨htracks, hstopped⟩ := hr
      refine wp_mono (fun r' t'' hr' => ?_) (ih htracks)
      exact ⟨hr'.1, hr'.2.trans hstopped⟩

variable {records : List Record}

theorem placeGroup_tracks {masterId : String}
    (h : Tracks range (records.map (fun rec => (masterId, rec)) ++ hand) t st) :
    wp Fetching (fun st' t' => Tracks range hand t' st' ∧ st'.stoppedForLimit = st.stoppedForLimit)
      (placeGroup host range behavior masterId records st) t := by
  unfold placeGroup
  cases hpending : st.pendingMasters.lookup masterId with
  | some master =>
      have hmoved : Tracks range ((siblings records).map (fun a => (masterId, a.2)) ++ hand) t
          { st with pendingMasters := st.pendingMasters.remove masterId } := by
        rw [siblings_snd]
        exact h.move rfl rfl rfl (fun _ _ hwaits => hwaits)
      refine wp_bind (wp_mono (fun st' t' hst => ?_) (emitAssets_tracks hmoved))
      refine wp_ret.mpr ⟨hst.1.fetching, ?_, hst.2⟩
      exact hst.1.move rfl rfl rfl (fun _ _ hwaits => hwaits)
  | none =>
      cases hpaired : st.pairedMasters.lookup masterId with
      | some master =>
          have hmoved : Tracks range ((records.map (fun rec =>
              (FullAssetStateId.asset, rec))).map (fun a => (masterId, a.2)) ++ hand) t st := by
            rw [List.map_map]
            exact h
          exact emitAssets_tracks hmoved
      | none =>
          refine wp_ret.mpr ⟨h.fetching, ?_, rfl⟩
          refine h.move rfl rfl rfl (fun id rec hwaits => ?_)
          rw [List.mem_append]
          rcases hwaits with hp | hhand
          · exact .inl (.inl hp)
          · rcases List.mem_append.mp hhand with hgroup | hhand
            · exact .inl (.inr hgroup)
            · exact .inr hhand

theorem placeGroups_tracks {keys : List String}
    (h : Tracks range (pageAssets.filter (fun e => e.1 ∈ keys)) t st) :
    wp Fetching (fun st' t' => Tracks range [] t' st' ∧ st'.stoppedForLimit = st.stoppedForLimit)
      (placeGroups host range behavior pageAssets keys st) t := by
  induction keys generalizing t st with
  | nil =>
      refine wp_ret.mpr ⟨h.fetching, h.move rfl rfl rfl (fun id rec hwaits => ?_), rfl⟩
      simpa using hwaits
  | cons masterId rest ih =>
      rw [placeGroups]
      have hsplit : Tracks range
          ((pageAssets.recordsOf masterId).map (fun rec => (masterId, rec)) ++
          pageAssets.filter (fun e => e.1 ∈ rest)) t st := by
        refine h.move rfl rfl rfl (fun id rec hwaits => hwaits.imp_right (fun hhand => ?_))
        obtain ⟨hmem, hkey⟩ := List.mem_filter.mp hhand
        rw [decide_eq_true_eq, List.mem_cons] at hkey
        rw [List.mem_append]
        rcases hkey with rfl | hkey
        · left
          rcases mem_recordsOf_or_remove id hmem with ⟨-, hin⟩ | hother
          · exact List.mem_map_of_mem hin
          · exact absurd (List.mem_filter.mp hother).2 (by simp)
        · exact .inr (List.mem_filter.mpr ⟨hmem, decide_eq_true hkey⟩)
      refine wp_bind (wp_mono (fun st' t' hst => ?_) (placeGroup_tracks hsplit))
      refine wp_mono (fun st'' t'' hst'' => ?_) (ih hst.1)
      exact ⟨hst''.1, hst''.2.trans hst.2⟩

/-! ## the loop -/

/-- What the loop keeps, and what it leaves behind when it ends. -/
structure Fetched (range : FetcherRange) (t : FTrace) (st : FetchState) : Prop where
  tracks : Tracks range [] t st
  stopped : st.limitReached = true → st.stoppedForLimit = true

/-- What the loop keeps from page to page. -/
structure Looping (range : FetcherRange) (t : FTrace) (st : FetchState) : Prop where
  tracks : Tracks range [] t st
  limitReached : st.limitReached = false
  stoppedForLimit : st.stoppedForLimit = false

theorem Looping.fetched (h : Looping range t st) : Fetched range t st := by
  refine ⟨h.tracks, fun hl => ?_⟩
  rw [h.limitReached] at hl
  contradiction

theorem Tracks.page {offset : Nat} {syncToken : Option String} (h : Tracks range [] t st) :
    Tracks range (pageAssetsOf records)
      (t ++ [⟨.post offset, PageReply.page syncToken records⟩]) st := by
  obtain ⟨hstarts, hnoComplete, hseen, hsent, hclean, hcovered, hlimited⟩ := h
  have hclaim {name : String} {start : Nat} {b : Bool} (hmem : claimEvent name start b ∈
      t ++ [⟨.post offset, PageReply.page syncToken records⟩]) : claimEvent name start b ∈ t := by
    rcases List.mem_append.mp hmem with hmem | hmem
    · exact hmem
    · cases List.mem_singleton.mp hmem
  refine ⟨fun name start b hmem => hstarts name start b (hclaim hmem), ?_,
    fun name hmem => (hseen name hmem).append_left _,
    fun hi hl name hmine => (hsent hi hl name (hclaim hmine)).append_left _,
    fun hi message ok hmem => ?_, fun hl rec hrec htype id hid => ?_, hlimited⟩
  · rw [completesOf_append, hnoComplete]
    rfl
  · rcases List.mem_append.mp hmem with hmem | hmem
    · exact hclean hi message ok hmem
    · cases List.mem_singleton.mp hmem
  · rw [received_append, List.mem_append] at hrec
    rcases hrec with hrec | hrec
    · rcases hcovered hl rec hrec htype id hid with hc | hp | hhand
      · exact .inl (hc.append_left _)
      · exact .inr (.inl hp)
      · exact absurd hhand List.not_mem_nil
    · have hin : rec ∈ records := by simpa [received, receivedOf] using hrec
      refine .inr (.inr (List.mem_filterMap.mpr ⟨rec, hin, ?_⟩))
      rw [if_pos htype, hid, Option.map_some]

theorem Tracks.fail (h : Tracks range hand t st) (message : String) (ok : Bool) :
    Tracks range hand (t ++ [sendEvent (.error message) ok])
      { st with enumerationIncomplete := true } := by
  refine h.adds ⟨?_, rfl, rfl, fun name hmem => .inl hmem, fun hi => by contradiction, id,
    fun hi => by contradiction, fun _ id rec hwaits => .inr hwaits, .inl⟩
  simp

theorem placeEmptyPage_spec (h : Looping range t st) :
    wp Fetching (fun r t' => Fetched range t' r.1 ∧ (r.2 = true → Looping range t' r.1))
      (placeEmptyPage range behavior st) t := by
  have hnext (st' : FetchState) (hseen : st'.emittedAssetRecords = st.emittedAssetRecords)
      (hpending : st'.pendingAssets = st.pendingAssets)
      (hincomplete : st'.enumerationIncomplete = st.enumerationIncomplete)
      (hlimit : st'.limitReached = st.limitReached)
      (hstopped : st'.stoppedForLimit = st.stoppedForLimit) : Looping range t st' :=
    ⟨h.tracks.move hseen hincomplete hlimit (fun _ _ hwaits => by rwa [hpending]),
      hlimit.trans h.limitReached, hstopped.trans h.stoppedForLimit⟩
  unfold placeEmptyPage
  dsimp only
  split
  · split
    · refine wp_bind (wp_perform.mpr ⟨h.tracks.fetching, fun ok => ?_⟩)
      have hfail := (hnext { st with consecutiveEmptyPages := st.consecutiveEmptyPages + 1 }
        rfl rfl rfl rfl rfl).tracks.fail ("Photo enumeration is incomplete: Apple returned " ++
          toString maxEmptyPageProbes ++
          " consecutive empty pages without confirming the end of the stream.") ok
      refine ⟨hfail.fetching, wp_ret.mpr ⟨hfail.fetching, ⟨hfail, fun hl => ?_⟩,
        fun hgo => by contradiction⟩⟩
      rw [h.limitReached] at hl
      contradiction
    · have hdone := hnext { st with consecutiveEmptyPages := st.consecutiveEmptyPages + 1 }
        rfl rfl rfl rfl rfl
      exact wp_ret.mpr ⟨h.tracks.fetching, hdone.fetched, fun hgo => by contradiction⟩
  · have hgo := hnext { st with
      consecutiveEmptyPages := st.consecutiveEmptyPages + 1,
      offset := st.offset + behavior.pageSize } rfl rfl rfl rfl rfl
    exact wp_ret.mpr ⟨h.tracks.fetching, hgo.fetched, fun _ => hgo⟩

theorem fetched_stopForLimit (hrole : range.limit.isSome = true → range.role = .limitProbe)
    (h : Tracks range hand t st) (hlimit : st.limitReached = true) :
    Fetched range t (st.stopForLimit range) := by
  refine ⟨?_, fun _ => decide_eq_true (hrole (h.limited hlimit))⟩
  obtain ⟨hstarts, hnoComplete, hseen, hsent, hclean, -, hlimited⟩ := h
  refine ⟨hstarts, hnoComplete, hseen, hsent, hclean, fun hl => ?_, hlimited⟩
  have hl' : st.limitReached = false := hl
  rw [hlimit] at hl'
  contradiction

theorem placePage_spec (hrole : range.limit.isSome = true → range.role = .limitProbe)
    (h : Tracks range (pageAssetsOf records) t st) (hlimit : st.limitReached = false)
    (hstopped : st.stoppedForLimit = false) :
    wp Fetching (fun r t' => Fetched range t' r.1 ∧ (r.2 = true → Looping range t' r.1))
      (placePage host range behavior records st) t := by
  unfold placePage
  have hstart : ∀ st' : FetchState, st'.emittedAssetRecords = st.emittedAssetRecords →
      st'.pendingAssets = st.pendingAssets →
      st'.enumerationIncomplete = st.enumerationIncomplete →
      st'.limitReached = false → st'.stoppedForLimit = false →
      wp Fetching (fun r t' => Tracks range r.2 t' r.1 ∧ r.1.stoppedForLimit = false)
        (placeMasters host range behavior (pageMastersOf records) st'
          (pageAssetsOf records)) t := by
    intro st' hseen hpending hincomplete hlimit' hstopped'
    have hmoved : Tracks range (pageAssetsOf records) t st' :=
      h.move hseen hincomplete (hlimit'.trans hlimit.symm) (fun _ _ hwaits => by rwa [hpending])
    refine wp_mono (fun r t' hr => ⟨hr.1, ?_⟩) (placeMasters_tracks hmoved)
    rw [hr.2, hstopped']
  refine wp_bind (wp_mono (fun r t₁ hr => ?_) (hstart _ ?_ ?_ ?_ ?_ ?_))
  rotate_left
  · split <;> rfl
  · split <;> rfl
  · split <;> rfl
  · split <;> rfl
  · split <;> exact hstopped
  obtain ⟨st₁, pageAssets⟩ := r
  obtain ⟨htracks, hstopped₁⟩ := hr
  dsimp only at htracks hstopped₁ ⊢
  cases hlimit₁ : st₁.limitReached with
  | true =>
      exact wp_ret.mpr ⟨htracks.fetching, fetched_stopForLimit hrole htracks hlimit₁,
        fun hgo => by contradiction⟩
  | false =>
      have hgroups : Tracks range (pageAssets.filter (fun e =>
          e.1 ∈ host.keyOrder (pageAssets.map (·.1)).eraseDups)) t₁ st₁ := by
        refine htracks.move rfl rfl rfl (fun id rec hwaits => hwaits.imp_right (fun hhand => ?_))
        refine List.mem_filter.mpr ⟨hhand, decide_eq_true ?_⟩
        rw [(host.keyOrder_perm _).mem_iff, List.mem_eraseDups]
        exact List.mem_map_of_mem hhand
      refine wp_bind (wp_mono (fun st₂ t₂ hst₂ => ?_) (placeGroups_tracks hgroups))
      obtain ⟨htracks₂, hstopped₂⟩ := hst₂
      rw [hstopped₁] at hstopped₂
      by_cases hlimit₂ : st₂.limitReached = true
      · rw [if_pos hlimit₂]
        exact wp_ret.mpr ⟨htracks₂.fetching, fetched_stopForLimit hrole htracks₂ hlimit₂,
          fun hgo => by contradiction⟩
      · rw [if_neg hlimit₂]
        rw [Bool.not_eq_true] at hlimit₂
        have hloop (st' : FetchState)
            (hseen : st'.emittedAssetRecords = st₂.emittedAssetRecords)
            (hpending : st'.pendingAssets = st₂.pendingAssets)
            (hincomplete : st'.enumerationIncomplete = st₂.enumerationIncomplete)
            (hlimit' : st'.limitReached = st₂.limitReached)
            (hstopped' : st'.stoppedForLimit = st₂.stoppedForLimit) :
            Looping range t₂ st' :=
          ⟨htracks₂.move hseen hincomplete hlimit' (fun _ _ hwaits => by rwa [hpending]),
            hlimit'.trans hlimit₂, hstopped'.trans hstopped₂⟩
        split
        · refine wp_bind (wp_perform.mpr ⟨htracks₂.fetching, fun ok => ?_⟩)
          have hfail := htracks₂.fail ("Photo enumeration is incomplete: " ++
            toString (pendingRecordCount st₂) ++
            " unpaired CPLMaster/CPLAsset records exceeded the pending-pair buffer.") ok
          refine ⟨hfail.fetching, wp_ret.mpr ⟨hfail.fetching, ⟨hfail, fun hl => ?_⟩,
            fun hgo => by contradiction⟩⟩
          rw [hlimit₂] at hl
          contradiction
        · split
          · have hgo := hloop { st₂ with
              consecutiveEmptyPages := st₂.consecutiveEmptyPages + 1 } rfl rfl rfl rfl rfl
            exact wp_ret.mpr ⟨htracks₂.fetching, hgo.fetched, fun _ => hgo⟩
          · have hgo := hloop { st₂ with consecutiveEmptyPages := 0 } rfl rfl rfl rfl rfl
            exact wp_ret.mpr ⟨htracks₂.fetching, hgo.fetched, fun _ => hgo⟩

theorem Looping.askedClosed (h : Looping range t st) (closed : Bool) :
    Looping range (t ++ [⟨.isClosed, closed⟩]) st := by
  refine ⟨h.tracks.adds ⟨?_, rfl, rfl, fun name hmem => .inl hmem, fun hi => ⟨hi, ?_⟩, id, ?_,
    fun _ id rec hwaits => .inr hwaits, .inl⟩, h.limitReached, h.stoppedForLimit⟩
  · intro name start b hmem
    cases List.mem_singleton.mp hmem
  · intro message ok hmem
    cases List.mem_singleton.mp hmem
  · intro _ _ name hmine
    cases List.mem_singleton.mp hmine

theorem observeToken_fields (st : FetchState) (syncToken : Option String) :
    (st.observeToken syncToken).emittedAssetRecords = st.emittedAssetRecords ∧
      (st.observeToken syncToken).pendingAssets = st.pendingAssets ∧
      (st.observeToken syncToken).enumerationIncomplete = st.enumerationIncomplete ∧
      (st.observeToken syncToken).limitReached = st.limitReached ∧
      (st.observeToken syncToken).stoppedForLimit = st.stoppedForLimit := by
  unfold FetchState.observeToken
  split
  · exact ⟨rfl, rfl, rfl, rfl, rfl⟩
  · split <;> exact ⟨rfl, rfl, rfl, rfl, rfl⟩

theorem Tracks.observeToken (h : Tracks range hand t st) (syncToken : Option String) :
    Tracks range hand t (st.observeToken syncToken) := by
  obtain ⟨hseen, hpending, hincomplete, hlimit, -⟩ := observeToken_fields st syncToken
  exact h.move hseen hincomplete hlimit (fun _ _ hwaits => by rwa [hpending])

theorem earlyExit_spec {Q : FetchState → FTrace → Prop} (h : completesOf t = [])
    (failure : EnumerationFailure) :
    wp Fetching Q (complete none (.incomplete failure) >>= fun _ => .stop) t := by
  refine wp_bind (wp_perform.mpr ⟨.inl h, fun r => ?_⟩)
  have hone : Fetching (t ++ [⟨.complete none (.incomplete failure), r⟩]) := by
    right
    refine ⟨failure, ?_⟩
    rw [completesOf_append, h]
    rfl
  exact ⟨hone, hone⟩

/-- **The loop keeps every record in view**, whatever the provider answers. -/
theorem fetchPages_spec (hrole : range.limit.isSome = true → range.role = .limitProbe) (fuel : Nat)
    (h : Looping range t st) :
    wp Fetching (fun st' t' => Fetched range t' st')
      (fetchPages host range behavior fuel st) t := by
  induction fuel generalizing t st with
  | zero => exact h.tracks.fetching
  | succ fuel ih =>
      rw [fetchPages]
      refine wp_bind (wp_perform.mpr ⟨h.tracks.fetching, fun closed => ?_⟩)
      have hopen : Looping range (t ++ [⟨.isClosed, closed⟩]) st := h.askedClosed closed
      refine ⟨hopen.tracks.fetching, ?_⟩
      split
      · exact earlyExit_spec hopen.tracks.noComplete .consumerDropped
      · split
        · exact wp_ret.mpr ⟨hopen.tracks.fetching, hopen.fetched⟩
        · refine wp_bind (wp_perform.mpr ⟨hopen.tracks.fetching, fun reply => ?_⟩)
          have hreply : completesOf
              (t ++ [⟨.isClosed, closed⟩] ++ [⟨.post st.offset, reply⟩]) = [] := by
            rw [completesOf_append, hopen.tracks.noComplete]
            rfl
          refine ⟨.inl hreply, ?_⟩
          cases reply with
          | error message =>
              refine wp_bind (wp_perform.mpr ⟨.inl hreply, fun ok => ?_⟩)
              have hsend : completesOf (t ++ [⟨.isClosed, closed⟩] ++
                  [⟨.post st.offset, .error message⟩] ++ [⟨.send (.error message), ok⟩]) = [] := by
                rw [completesOf_append, hreply]
                rfl
              exact ⟨.inl hsend, earlyExit_spec hsend .fetcherError⟩
          | page syncToken records =>
              have hpage : Tracks range (pageAssetsOf records)
                  (t ++ [⟨.isClosed, closed⟩] ++ [⟨.post st.offset, .page syncToken records⟩])
                  (st.observeToken syncToken) := hopen.tracks.page.observeToken syncToken
              obtain ⟨-, -, -, hlimit, hstopped⟩ := observeToken_fields st syncToken
              rw [h.limitReached] at hlimit
              rw [h.stoppedForLimit] at hstopped
              have hnext (r : FetchState × Bool) (t' : FTrace)
                  (hr : Fetched range t' r.1 ∧ (r.2 = true → Looping range t' r.1)) :
                  wp Fetching (fun st' t' => Fetched range t' st')
                    (if r.2 then fetchPages host range behavior fuel r.1 else pure r.1) t' := by
                obtain ⟨hfetched, hloop⟩ := hr
                split
                · next hgo => exact ih (hloop hgo)
                · exact wp_ret.mpr ⟨hfetched.tracks.fetching, hfetched⟩
              dsimp only
              split
              · next hnil =>
                  subst hnil
                  exact wp_bind (wp_mono hnext (placeEmptyPage_spec ⟨hpage, hlimit, hstopped⟩))
              · exact wp_bind (wp_mono hnext (placePage_spec hrole hpage hlimit hstopped))

/-! ## the end of a fetcher -/

/-- What a fetcher did that reports the proven end of its range. -/
structure Proven (range : FetcherRange) (behavior : FetcherBehavior) (t : FTrace)
    (st : FetchState) : Prop where
  starts : ∀ name start b, claimEvent name start b ∈ t → start = range.start
  sent : ∀ name, Mine range t name → Sent t name
  clean : Clean t
  covered : ∀ rec ∈ received t, rec.recordType = "CPLAsset" → ∀ id, rec.masterRef = some id →
    Claimed range t rec.recordName ∨
      behavior.allowUnpairedAtRangeBoundary = true ∧ (id, rec) ∈ st.pendingAssets
  paired : behavior.allowUnpairedAtRangeBoundary = false →
    st.pendingMasters = [] ∧ st.pendingAssets = []

variable {q : FetcherProc FetchState}

theorem report_steps (h : Steps (report behavior st) t q) :
    completesOf t = [] ∨ ∃ token, completesOf t = [(token, completionOf st)] ∧ q = .ret st ∧
      (st.stoppedForLimit = false → t = [⟨.complete token (completionOf st), ()⟩]) := by
  unfold report at h
  cases hstopped : st.stoppedForLimit with
  | false =>
      rw [hstopped] at h
      cases h with
      | refl => exact .inl rfl
      | call h =>
          cases h with
          | refl => exact .inr ⟨_, rfl, rfl, fun _ => rfl⟩
  | true =>
      rw [hstopped] at h
      cases h with
      | refl => exact .inl rfl
      | call h =>
          cases h with
          | refl => exact .inl rfl
          | call h =>
              cases h with
              | refl => exact .inr ⟨_, rfl, rfl, fun hfalse => by contradiction⟩

theorem completionOf_provenEof (h : completionOf st = .provenEof) :
    st.enumerationIncomplete = false ∧ st.stoppedForLimit = false := by
  unfold completionOf at h
  split at h
  · contradiction
  · split at h
    · contradiction
    · split at h
      · contradiction
      · next hi hs => exact ⟨Bool.not_eq_true _ ▸ hi, Bool.not_eq_true _ ▸ hs⟩

/-- A proven end is reported at once, by a fetcher that nothing unpaired holds back. -/
theorem finish_steps (h : Steps (finish behavior st) t q) :
    completesOf t = [] ∨ ∃ token c, completesOf t = [(token, c)] ∧ (c = .provenEof →
      q = .ret st ∧ t = [⟨.complete token .provenEof, ()⟩] ∧ hasUnpaired behavior st = false ∧
        completionOf st = .provenEof) := by
  unfold finish at h
  split at h
  · cases h with
    | refl => exact .inl rfl
    | call h =>
        rcases report_steps h with hnone | ⟨token, hone, -, -⟩
        · exact .inl hnone
        · refine .inr ⟨token, _, hone, fun hproven => ?_⟩
          have hincomplete := (completionOf_provenEof hproven).1
          contradiction
  · next hpaired =>
      rcases report_steps h with hnone | ⟨token, hone, hret, hevents⟩
      · exact .inl hnone
      · refine .inr ⟨token, _, hone, fun hproven => ⟨hret, ?_, ?_, hproven⟩⟩
        · rw [hevents (completionOf_provenEof hproven).2, hproven]
        · rwa [Bool.not_eq_true] at hpaired

theorem hasUnpaired_eq_false (h : hasUnpaired behavior st = false)
    (hstopped : st.stoppedForLimit = false)
    (hallow : behavior.allowUnpairedAtRangeBoundary = false) :
    st.pendingMasters = [] ∧ st.pendingAssets = [] := by
  unfold hasUnpaired at h
  rw [hstopped, hallow] at h
  simpa using h

theorem fetched_proven (h : Fetched range t st) (hpaired : hasUnpaired behavior st = false)
    (hproven : completionOf st = .provenEof) (token : Option String) :
    Proven range behavior (t ++ [⟨.complete token .provenEof, ()⟩]) st := by
  obtain ⟨hincomplete, hstopped⟩ := completionOf_provenEof hproven
  have hlimit : st.limitReached = false := by
    cases hl : st.limitReached with
    | false => rfl
    | true =>
        rw [h.stopped hl] at hstopped
        contradiction
  have hclaim {name : String} {start : Nat} {b : Bool}
      (hmem : claimEvent name start b ∈ t ++ [⟨.complete token .provenEof, ()⟩]) :
      claimEvent name start b ∈ t := by
    rcases List.mem_append.mp hmem with hmem | hmem
    · exact hmem
    · cases List.mem_singleton.mp hmem
  refine ⟨fun name start b hmem => h.tracks.starts name start b (hclaim hmem),
    fun name hmine => (h.tracks.sent hincomplete hlimit name (hclaim hmine)).append_left _,
    fun message ok hmem => ?_, fun rec hrec htype id hid => ?_,
    hasUnpaired_eq_false hpaired hstopped⟩
  · rcases List.mem_append.mp hmem with hmem | hmem
    · exact h.tracks.clean hincomplete message ok hmem
    · cases List.mem_singleton.mp hmem
  · have hrec' : rec ∈ received t := by simpa [received, receivedOf] using hrec
    rcases h.tracks.covered hlimit rec hrec' htype id hid with hclaimed | hwaits | hhand
    · exact .inl (hclaimed.append_left _)
    · right
      cases hallow : behavior.allowUnpairedAtRangeBoundary with
      | true => exact ⟨rfl, hwaits⟩
      | false =>
          rw [(hasUnpaired_eq_false hpaired hstopped hallow).2] at hwaits
          exact absurd hwaits List.not_mem_nil
    · exact absurd hhand List.not_mem_nil

theorem looping_init (range : FetcherRange) : Looping range [] (.init range.start) := by
  refine ⟨⟨?_, rfl, ?_, ?_, ?_, ?_, ?_⟩, rfl, rfl⟩ <;>
    simp [FetchState.init, Mine, Clean, received]

/-- **A fetcher that reports the proven end** has returned, and left no record behind. -/
theorem spawnFetcher_steps (hrole : range.limit.isSome = true → range.role = .limitProbe)
    {fuel : Nat} (h : Steps (spawnFetcher host fuel behavior range) t q) :
    completesOf t = [] ∨ ∃ token c, completesOf t = [(token, c)] ∧
      (c = .provenEof → ∃ st, q = .ret st ∧ Proven range behavior t st) := by
  have hloop : wp Fetching (fun st' t' => Fetched range t' st')
      (fetchPages host range behavior fuel (.init range.start)) [] :=
    fetchPages_spec hrole fuel (looping_init range)
  rcases steps_bind h with ⟨q', hsteps, -⟩ | ⟨t₁, t₂, st, rfl, hsteps, hrest⟩
  · rcases (wp_steps hloop hsteps).1 with hnone | ⟨failure, hone⟩
    · exact .inl hnone
    · exact .inr ⟨none, _, hone, fun hc => by contradiction⟩
  · have hfetched : Fetched range t₁ st := (wp_steps hloop hsteps).2 st rfl
    rw [completesOf_append, hfetched.tracks.noComplete, List.nil_append]
    rcases finish_steps hrest with hnone | ⟨token, c, hone, hproven⟩
    · exact .inl hnone
    · refine .inr ⟨token, c, hone, fun hc => ?_⟩
      obtain ⟨hret, rfl, hpaired, hcompletion⟩ := hproven hc
      exact ⟨st, hret, fetched_proven hfetched hpaired hcompletion token⟩

end Kei.PhotoStream
