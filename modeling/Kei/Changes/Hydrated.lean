import Kei.Changes.Hydration

/-!
# Kei.Changes.Hydrated

Whether an album stream with a token has given every member of the album.

When the members are compared, one that is left withholds the token.  When they
are not, because the count is not known or is reached, the token is that of the
base stream, and a member in another zone is left out.
-/

namespace Kei.Changes

variable {host : Host} {drain : DrainOrder} {received : Nat → Bool}

/-! ## scans -/

section
variable {σ : Type} {onRecord : σ → Record → σ × Bool} {P : σ → Prop}

theorem scanRecords_invariant (hstep : ∀ state record, P state → P (onRecord state record).1)
    (records : List Record) (state : σ) (h : P state) :
    P (scanRecords onRecord state records).1 := by
  induction records generalizing state with
  | nil => exact h
  | cons record rest ih =>
      have hnext := hstep state record h
      rw [scanRecords]
      cases hrecord : onRecord state record with
      | mk next goOn =>
          rw [hrecord] at hnext
          cases goOn with
          | false => exact hnext
          | true => exact ih next hnext

theorem scanChangesZone_invariant (hstep : ∀ state record, P state → P (onRecord state record).1)
    (feed : Feed) (state : σ) (h : P state) {result : σ}
    (hresult : scanChangesZone onRecord state feed = .ok result) : P result := by
  induction feed generalizing state with
  | failed error => cases hresult
  | last records syncToken =>
      cases hresult
      exact scanRecords_invariant hstep records state h
  | more records syncToken rest ih =>
      have hpage := scanRecords_invariant hstep records state h
      rw [scanChangesZone] at hresult
      cases hscan : scanRecords onRecord state records with
      | mk next goOn =>
          rw [hscan] at hresult hpage
          cases goOn with
          | false =>
              cases hresult
              exact hpage
          | true => exact ih next hpage hresult

end

/-! ## sources -/

/-- Someone is among the assets. -/
def Has (assets : List PhotoAsset) (id : String) : Prop :=
  ∃ asset ∈ assets, asset.assetRecordName = id

theorem Has.mono {assets assets' : List PhotoAsset} {id : String} (h : Has assets id)
    (hsub : ∀ asset ∈ assets, asset ∈ assets') : Has assets' id := by
  obtain ⟨asset, hmem, hname⟩ := h
  exact ⟨asset, hsub asset hmem, hname⟩

/-- What was missing is missing still, or was found. -/
def Matching.From (missing : List String) (m : Matching) : Prop :=
  ∀ id ∈ missing, id ∈ m.missing ∨ Has m.matched id

variable {missing : List String}

theorem takeEvent_from {m : Matching} (zoneName : String) (event : ChangeEvent)
    (h : m.From missing) : (m.takeEvent zoneName event).From missing := by
  unfold Matching.takeEvent
  cases event.asset with
  | none => exact h
  | some asset =>
      dsimp only
      split
      · intro id hid
        by_cases hname : asset.assetRecordName = id
        · exact .inr ⟨_, List.mem_append_right _ (List.mem_singleton.mpr rfl), hname⟩
        · cases h id hid with
          | inl hmissing =>
              exact .inl ((List.mem_erase_of_ne (fun heq => hname heq.symm)).mpr hmissing)
          | inr hfound => exact .inr (hfound.mono (fun _ hmem => List.mem_append_left _ hmem))
      · exact h

theorem takeEvents_from {m : Matching} (zoneName : String) (events : List ChangeEvent)
    (h : m.From missing) : (events.foldl (Matching.takeEvent zoneName) m).From missing := by
  induction events generalizing m with
  | nil => exact h
  | cons event rest ih => exact ih (takeEvent_from zoneName event h)

theorem matchRecord_matching (source : Source) (state : DeltaRecordBuffer × Matching)
    (record : Record) : (source.matchRecord host state record).1.2 =
      (state.1.processRecords host [record]).2.foldl (Matching.takeEvent source.zoneName)
        state.2 := by
  unfold Source.matchRecord
  cases state.1.processRecords host [record]
  rfl

/-- A source that is read gives what it takes from the missing ones. -/
theorem matchingAssetsFromChanges_from {source : Source} {m : Matching}
    (h : source.matchingAssetsFromChanges host drain missing = .ok m) : m.From missing := by
  unfold Source.matchingAssetsFromChanges at h
  cases hscan : scanChangesZone (source.matchRecord host) (.new, ⟨missing, []⟩) source.feed with
  | error error => simp [hscan, Except.map] at h
  | ok state =>
      have hstate : state.2.From missing := by
        refine scanChangesZone_invariant (P := fun state => state.2.From missing)
          (fun state record hfrom => ?_) source.feed _ (fun id hid => .inl hid) hscan
        rw [matchRecord_matching]
        exact takeEvents_from source.zoneName _ hfrom
      simp only [hscan, Except.map, Except.ok.injEq] at h
      rw [← h]
      exact takeEvents_from source.zoneName _ hstate

/-! ## sending -/

variable {out out' : Sending}

theorem sendAll_emitted {assets : List PhotoAsset}
    (h : out.sendAll received assets = (out', true)) : out'.emitted = out.emitted ++ assets := by
  induction assets generalizing out with
  | nil =>
      cases h
      simp
  | cons asset rest ih =>
      rw [Sending.sendAll, Sending.send] at h
      by_cases hreceived : received out.sends = true
      · simp only [hreceived, if_true] at h
        simpa using ih h
      · simp [hreceived] at h

theorem hydrateFrom_spec {missing missing' : List String} {sources : List Source}
    (h : hydrateFrom host drain received out missing sources = (out', some missing')) :
    (∀ asset ∈ out.emitted, asset ∈ out'.emitted) ∧
      ∀ id ∈ missing, id ∈ missing' ∨ Has out'.emitted id := by
  induction sources generalizing out missing with
  | nil =>
      cases h
      exact ⟨fun _ h => h, fun id h => .inl h⟩
  | cons source rest ih =>
      rw [hydrateFrom] at h
      split at h
      · cases h
        exact ⟨fun _ h => h, fun id h => .inl h⟩
      · cases hmatch : source.matchingAssetsFromChanges host drain missing with
        | error error => simp [hmatch] at h
        | ok m =>
            simp only [hmatch] at h
            cases hsend : out.sendAll received m.matched with
            | mk next goOn =>
                cases goOn with
                | false => simp [hsend] at h
                | true =>
                    simp only [hsend] at h
                    have hemitted := sendAll_emitted hsend
                    obtain ⟨hkept, hleft⟩ := ih h
                    refine ⟨fun asset hmem => hkept asset (by simp [hemitted, hmem]),
                      fun id hid => ?_⟩
                    cases matchingAssetsFromChanges_from hmatch id hid with
                    | inl hmissing => exact hleft id hmissing
                    | inr hfound => exact .inr (hfound.mono (fun asset hmem =>
                        hkept asset (by simp [hemitted, hmem])))

/-! ## the base stream -/

/-- The assets among the items of a stream. -/
def assetsIn (items : List (Except String PhotoAsset)) : List PhotoAsset :=
  items.filterMap Except.toOption

/-- One of the items is an error. -/
def hasError (items : List (Except String PhotoAsset)) : Bool :=
  items.any (fun item => item.toOption.isNone)

section
variable {items : List (Except String PhotoAsset)}

@[simp] theorem assetsIn_nil : assetsIn [] = [] := rfl

@[simp] theorem assetsIn_error (error : String) :
    assetsIn (.error error :: items) = assetsIn items := rfl

@[simp] theorem assetsIn_ok (asset : PhotoAsset) :
    assetsIn (.ok asset :: items) = asset :: assetsIn items := rfl

@[simp] theorem hasError_error (error : String) : hasError (.error error :: items) = true := rfl

@[simp] theorem hasError_ok (asset : PhotoAsset) :
    hasError (.ok asset :: items) = hasError items := rfl

@[simp] theorem has_nil (id : String) : ¬ Has [] id := by simp [Has]

@[simp] theorem has_cons (asset : PhotoAsset) (assets : List PhotoAsset) (id : String) :
    Has (asset :: assets) id ↔ asset.assetRecordName = id ∨ Has assets id := by
  simp [Has]

end

theorem forwardBase_spec {items : List (Except String PhotoAsset)} {seen seen' : BaseSeen}
    (h : forwardBase received out seen items = (out', seen', true)) :
    out'.emitted = out.emitted ++ assetsIn items ∧
      seen'.baseSeen = seen.baseSeen + (assetsIn items).length ∧
      seen'.streamError = (seen.streamError || hasError items) ∧
      ∀ id, id ∈ seen'.seenAssetRecords ↔ id ∈ seen.seenAssetRecords ∨ Has (assetsIn items) id := by
  induction items generalizing out seen with
  | nil =>
      cases h
      simp [assetsIn, hasError]
  | cons item rest ih =>
      cases item with
      | error error =>
          obtain ⟨hemitted, hcount, herror, hseen⟩ := ih h
          exact ⟨hemitted, hcount, by simp [herror], hseen⟩
      | ok asset =>
          rw [forwardBase, Sending.send] at h
          by_cases hreceived : received out.sends = true
          · simp only [hreceived, if_true] at h
            obtain ⟨hemitted, hcount, herror, hseen⟩ := ih h
            refine ⟨by simp [hemitted], ?_, herror, fun id => ?_⟩
            · simp only [assetsIn_ok, List.length_cons, hcount]
              omega
            · rw [hseen id, List.mem_insert_iff, assetsIn_ok, has_cons, eq_comm (a := id), or_assoc,
                or_left_comm]
          · simp [hreceived] at h

theorem forwardBase_all (items : List (Except String PhotoAsset)) (out : Sending)
    (seen : BaseSeen) : (forwardBase (fun _ => true) out seen items).2.2 = true := by
  induction items generalizing out seen with
  | nil => rfl
  | cons item rest ih => cases item <;> simp [forwardBase, Sending.send, ih]

/-! ## the stream -/

/-- With a token every live member has been given, whenever the consumer leaves. -/
def CrossZoneStream.Covers (stream : CrossZoneStream) (host : Host) (drain : DrainOrder) : Prop :=
  ∀ (received : Nat → Bool) (containerId token : String) (ids : List String),
    stream.containerId = some containerId →
    (stream.photoStreamWithCrossZoneHydration host drain received).2 = some token →
    albumRelationItemIds containerId stream.relations = .ok ids →
    ∀ id ∈ ids, Has (stream.photoStreamWithCrossZoneHydration host drain received).1 id

/-- The base stream ends with a token and without an error. -/
def CrossZoneStream.BaseEnds (stream : CrossZoneStream) : Prop :=
  stream.baseToken.isSome ∧ hasError stream.base = false

/-- Without a comparison every live member is on the base stream already. -/
def CrossZoneStream.Accounts (stream : CrossZoneStream) : Prop :=
  stream.BaseEnds → stream.shouldHydrate (assetsIn stream.base).length = false →
    ∀ (containerId : String) (ids : List String), stream.containerId = some containerId →
      albumRelationItemIds containerId stream.relations = .ok ids →
      ∀ id ∈ ids, Has (assetsIn stream.base) id

variable {stream : CrossZoneStream}

/-- Members that are compared are all given, or the token is withheld. -/
theorem hydrate_covers {containerId token : String} {ids : List String} {seen : BaseSeen}
    (hids : albumRelationItemIds containerId stream.relations = .ok ids)
    (hseen : ∀ id ∈ seen.seenAssetRecords, Has out.emitted id)
    (h : stream.hydrate host drain received containerId out seen = (out', some token)) :
    ∀ id ∈ ids, Has out'.emitted id := by
  rw [CrossZoneStream.hydrate] at h
  simp only [hids] at h
  split at h
  · next hnone =>
      obtain ⟨rfl, -⟩ := Prod.mk.inj h
      intro id hid
      by_contra hnot
      have hmissing : id ∈ ids.filter (· ∉ seen.seenAssetRecords) :=
        List.mem_filter.mpr ⟨hid, by simpa using fun hmem => hnot (hseen id hmem)⟩
      rw [List.isEmpty_iff.mp hnone] at hmissing
      cases hmissing
  · cases hfrom : hydrateFrom host drain received out
        (ids.filter (· ∉ seen.seenAssetRecords)) stream.sources with
    | mk next left =>
        cases left with
        | none =>
            simp only [hfrom] at h
            cases (Prod.mk.inj h).2
        | some left =>
            obtain ⟨hkept, hleft⟩ := hydrateFrom_spec hfrom
            simp only [hfrom] at h
            split at h
            · next hempty =>
                obtain ⟨rfl, -⟩ := Prod.mk.inj h
                intro id hid
                by_cases hold : id ∈ seen.seenAssetRecords
                · exact (hseen id hold).mono hkept
                · have hmissing : id ∈ ids.filter (· ∉ seen.seenAssetRecords) :=
                    List.mem_filter.mpr ⟨hid, by simpa using hold⟩
                  refine (hleft id hmissing).resolve_left (fun hmem => ?_)
                  rw [List.isEmpty_iff.mp hempty] at hmem
                  cases hmem
            · cases h

/-- What a consumer that stays gets when the members are not compared. -/
theorem stream_not_compared {containerId : String}
    (hcontainer : stream.containerId = some containerId)
    (herror : hasError stream.base = false)
    (hnot : stream.shouldHydrate (assetsIn stream.base).length = false) :
    stream.photoStreamWithCrossZoneHydration host drain (fun _ => true) =
      (assetsIn stream.base, stream.baseToken) := by
  have hall := forwardBase_all stream.base ⟨0, []⟩ ⟨[], 0, false⟩
  rw [CrossZoneStream.photoStreamWithCrossZoneHydration]
  simp only [hcontainer]
  cases hforward : forwardBase (fun _ => true) ⟨0, []⟩ ⟨[], 0, false⟩ stream.base with
  | mk out rest =>
      obtain ⟨seen, goOn⟩ := rest
      rw [hforward] at hall
      obtain rfl : goOn = true := hall
      obtain ⟨hemitted, hcount, hstream, -⟩ := forwardBase_spec hforward
      simp [hstream, herror, hcount, hnot, hemitted]

theorem accounts_of_covers (h : stream.Covers host drain) : stream.Accounts := by
  intro hends hnot containerId ids hcontainer hids id hid
  obtain ⟨token, htoken⟩ := Option.isSome_iff_exists.mp hends.1
  have hstream := @stream_not_compared host drain stream containerId hcontainer hends.2 hnot
  have hcovers := h (fun _ => true) containerId token ids hcontainer
  rw [hstream] at hcovers
  exact hcovers htoken hids id hid

/--
**A stream with a token has given every live member** if and only if the
members that are not compared are all on the base stream.
-/
theorem covers_iff (stream : CrossZoneStream) (host : Host) (drain : DrainOrder) :
    stream.Covers host drain ↔ stream.Accounts := by
  refine ⟨accounts_of_covers, ?_⟩
  intro h received containerId token ids hcontainer htoken hids id hid
  rw [CrossZoneStream.photoStreamWithCrossZoneHydration] at htoken ⊢
  simp only [hcontainer] at htoken ⊢
  cases hforward : forwardBase received ⟨0, []⟩ ⟨[], 0, false⟩ stream.base with
  | mk out rest =>
      obtain ⟨seen, goOn⟩ := rest
      simp only [hforward] at htoken ⊢
      cases goOn with
      | false => simp at htoken
      | true =>
          obtain ⟨hemitted, hcount, hstream, hseen⟩ := forwardBase_spec hforward
          simp only [Bool.false_or, Nat.zero_add, List.nil_append, List.not_mem_nil, false_or]
            at hemitted hcount hstream hseen
          by_cases herror : hasError stream.base = true
          · simp [hstream, herror] at htoken
          · simp only [hstream, herror, hcount] at htoken ⊢
            by_cases hcompared : stream.shouldHydrate (assetsIn stream.base).length = true
            · simp only [hcompared, Bool.not_true, Bool.false_eq_true, if_false] at htoken ⊢
              cases hhydrate : stream.hydrate host drain received containerId out seen with
              | mk out' token' =>
                  rw [hhydrate] at htoken
                  obtain rfl : token' = some token := htoken
                  refine hydrate_covers hids (fun name hname => ?_) hhydrate id hid
                  rw [hemitted]
                  exact (hseen name).mp hname
            · have hnot : stream.shouldHydrate (assetsIn stream.base).length = false := by
                simpa using hcompared
              simp only [hnot, Bool.not_false, Bool.false_eq_true, if_true, if_false] at htoken ⊢
              rw [hemitted]
              exact h ⟨by simp [htoken], by simpa using herror⟩ hnot containerId ids hcontainer
                hids id hid

/-! ## a member that is not given -/

def photoNamed (name : String) : PhotoAsset := ⟨"m-" ++ name, name, none, none, .null, .null⟩

def relationOf (containerId itemId : String) : Record where
  recordName := itemId ++ "-IN-" ++ containerId
  recordType := "CPLContainerRelation"
  fields := .object [("containerId", .object [("value", .string containerId)]),
    ("itemId", .object [("value", .string itemId)])]
  deleted := none

/-- The records of a photo in a zone. -/
def photoRecords (name : String) : List Record :=
  [{ recordName := "m-" ++ name, recordType := "CPLMaster", fields := .object [],
      deleted := none },
    { recordName := name, recordType := "CPLAsset",
      fields := .object [("masterRef", .object [("value",
        .object [("recordName", .string ("m-" ++ name))])])],
      deleted := none }]

/-- An album of two members, one of them in another zone, without a count. -/
def uncounted : CrossZoneStream where
  containerId := some "c"
  limit := none
  totalCount := none
  base := [.ok (photoNamed "a")]
  baseToken := some "t"
  relations := .last [relationOf "c" "a", relationOf "c" "b"] "t"
  sources := [⟨"SharedSync-1", .last (photoRecords "b") "s"⟩]

/-- **Without a count the member of another zone is not given, but the token is.** -/
theorem uncounted_not_covers : ¬ uncounted.Covers plainHost inOrder := by
  intro h
  have hids : albumRelationItemIds "c" uncounted.relations = .ok ["b", "a"] := by
    rfl
  have hmember := accounts_of_covers h ⟨rfl, rfl⟩ rfl "c" ["b", "a"] rfl hids "b" (by simp)
  simp [uncounted, photoNamed] at hmember

end Kei.Changes
