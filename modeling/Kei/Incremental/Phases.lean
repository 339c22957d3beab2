import Kei.Incremental
import Kei.Lib.Traverse

/-!
# Kei.Incremental.Phases

What each phase of a run does to the events, the mappings and the memberships.

The phases give events their assets and change nothing else in them, so that an
event keeps its place; `Completed` says what its asset can be.  A run without
issues is called quiet.
-/

namespace Kei.Incremental

open Accum Changes FullEnumeration StateDb

/-! ## a quiet run -/

variable {inp : Input}

theorem issues_eq_nil :
    inp.issues = [] ↔ inp.unsafeEvents = [] ∧ inp.mapped.2 = [] ∧ inp.paired.2 = [] ∧
      inp.identityIssues = [] ∧ inp.albums.2 = [] ∧ inp.hydrated.2 = [] ∧
      inp.refreshIssues = [] ∧ inp.relations.2 = [] ∧ inp.routingIssues = [] := by
  simp [Input.issues]

theorem tokenUnsafeReason_eq_none : inp.tokenUnsafeReason = none ↔ inp.issues = [] := by
  simp [Input.tokenUnsafeReason]

/-! ## events and their assets -/

/-- An event without its asset. -/
def Delivered.eraseAsset (event : Delivered) : Delivered := { event with asset := none }

/-- The event has an asset of that name. -/
def Delivered.hasAsset (event : Delivered) (name : String) : Prop :=
  ∃ asset, event.asset = some asset ∧ asset.assetRecordName = name

/-- The event is about the asset: with its records, or with the asset record alone. -/
def Delivered.brings (event : Delivered) (name : String) : Prop :=
  event.hasAsset name ∨ event.isUnpairedCreated = true ∧ event.recordName = name

theorem Delivered.not_hasAsset {event : Delivered} (h : event.isUnpairedCreated = true)
    (name : String) : ¬event.hasAsset name := by
  rintro ⟨asset, hasset, -⟩
  simp [Delivered.isUnpairedCreated, hasset] at h

/-- What an event of the feed becomes. -/
structure Completed (event event' : Delivered) : Prop where
  erase : event'.eraseAsset = event.eraseAsset
  kept : ∀ name, event.hasAsset name → event'.hasAsset name
  brings : ∀ name, event'.hasAsset name → event.brings name

theorem Completed.refl (event : Delivered) : Completed event event :=
  ⟨rfl, fun _ h => h, fun _ h => .inl h⟩

theorem Completed.congr {β : Sort*} {event event' : Delivered} (h : Completed event event')
    (f : Delivered → β) (hf : ∀ event, f event.eraseAsset = f event) : f event' = f event := by
  rw [← hf event', h.erase, hf event]

section

variable {event event' : Delivered} (h : Completed event event')

include h

theorem Completed.relation : event'.relation = event.relation := h.congr (·.relation) fun _ => rfl

theorem Completed.recordName : event'.recordName = event.recordName :=
  h.congr (·.recordName) fun _ => rfl

theorem Completed.isPlainCreated : event'.isPlainCreated = event.isPlainCreated :=
  h.congr (·.isPlainCreated) fun _ => rfl

end

theorem map_eq_of_completed {β : Type*} {f : Delivered → β} {raws events : List Delivered}
    (hf : ∀ event, f event.eraseAsset = f event) (h : List.Forall₂ Completed raws events) :
    events.map f = raws.map f := by
  induction h with
  | nil => rfl
  | cons hcompleted _ ih => rw [List.map_cons, List.map_cons, ih, hcompleted.congr f hf]

/-! ## asset-only records -/

/-- The place is the one of an asset-only record of that name. -/
def NamedAt (raws : List Delivered) (index : Nat) (name : String) : Prop :=
  ∃ raw, raws[index]? = some raw ∧ raw.isUnpairedCreated = true ∧ raw.recordName = name

/-- What is known of the asset-only records has their names. -/
structure Unpaired.Named (raws : List Delivered) (unpaired : Unpaired) : Prop where
  pending : ∀ p ∈ unpaired.pending, NamedAt raws p.index p.recordName
  unresolved : ∀ u ∈ unpaired.unresolved, NamedAt raws u.2 u.1

variable {config : DownloadConfig} {raws : List Delivered} {store : Store}

theorem collectUnpaired_named {unpaired : Unpaired} {entry : Delivered × Nat}
    (hentry : entry ∈ raws.zipIdx) (h : unpaired.Named raws) :
    (collectUnpaired config store unpaired entry).1.Named raws := by
  have hat : entry.1.isUnpairedCreated = true → NamedAt raws entry.2 entry.1.recordName :=
    fun hunpaired => ⟨entry.1, List.mem_zipIdx_iff_getElem?.mp hentry, hunpaired, rfl⟩
  unfold collectUnpaired
  split
  · next hunpaired =>
      split
      · exact h
      · refine ⟨?_, h.unresolved⟩
        simpa [or_imp, forall_and] using ⟨h.pending, hat hunpaired⟩
      · refine ⟨h.pending, ?_⟩
        simpa [or_imp, forall_and] using ⟨fun a b => h.unresolved (a, b), hat hunpaired⟩
  · exact h

variable {resolved : Resolved}

theorem resolveIdentity_named {state : Store × Unpaired} (h : state.2.Named raws) :
    (resolveIdentity config state resolved).1.2.Named raws := by
  obtain ⟨store, unpaired⟩ := state
  have hrest : ∀ u ∈ unpaired.unresolved.filter (fun u => u.1 ≠ resolved.stateId),
      NamedAt raws u.2 u.1 := fun u hu => h.unresolved u (List.mem_of_mem_filter hu)
  unfold resolveIdentity
  dsimp only
  split
  · exact h
  · split
    · refine ⟨fun p hp => ?_, hrest⟩
      rcases List.mem_append.mp hp with hp | hp
      · exact h.pending p hp
      · simp only [List.mem_map, List.mem_filter, decide_eq_true_eq] at hp
        obtain ⟨index, ⟨u, ⟨hu, hname⟩, rfl⟩, rfl⟩ := hp
        exact hname ▸ h.unresolved u hu
    · exact ⟨h.pending, hrest⟩
    · exact ⟨h.pending, hrest⟩

variable {asset : PhotoAsset}

theorem setAsset_completed {raws events : List Delivered} {index : Nat} {raw : Delivered}
    (h : List.Forall₂ Completed raws events) (hraw : raws[index]? = some raw)
    (hunpaired : raw.isUnpairedCreated = true) (hname : asset.assetRecordName = raw.recordName) :
    List.Forall₂ Completed raws (setAsset events index asset) := by
  unfold setAsset
  induction h generalizing index with
  | nil => simp at hraw
  | @cons raw' event raws events hcompleted hrest ih =>
      cases index with
      | zero =>
          obtain rfl : raw' = raw := by simpa using hraw
          refine .cons ⟨hcompleted.erase, ?_, ?_⟩ hrest
          · exact fun name h => absurd h (Delivered.not_hasAsset hunpaired name)
          · rintro name ⟨asset', hasset, rfl⟩
            cases hasset
            exact .inr ⟨hunpaired, hname.symm⟩
      | succ index => exact .cons hcompleted (ih (by simpa using hraw))

variable {pending : List Pending}

theorem recordName_at {raws events : List Delivered}
    (hpending : ∀ p ∈ pending, NamedAt raws p.index p.recordName)
    (h : List.Forall₂ Completed raws events) {p : Pending} (hp : p ∈ pending) :
    ∃ event, events[p.index]? = some event ∧ event.recordName = p.recordName := by
  obtain ⟨raw, hraw, -, hname⟩ := hpending p hp
  obtain ⟨hlt, rfl⟩ := List.getElem?_eq_some_iff.mp hraw
  obtain ⟨hlength, hat⟩ := List.forall₂_iff_get.mp h
  have hlt' : p.index < events.length := by omega
  exact ⟨events[p.index], List.getElem?_eq_getElem hlt',
    (hat p.index hlt hlt').recordName.trans hname⟩

variable {state : Store × List Delivered}

/-- One answer changes nothing, or it gives an asset-only record of its name the asset. -/
theorem resolvePair_cases (hpending : ∀ p ∈ pending, NamedAt raws p.index p.recordName)
    (h : List.Forall₂ Completed raws state.2) : let run := resolvePair config pending state resolved
    (run.1 = state ∧ (run.2 = [] → ∃ masterFamily, resolved.resolution = .deleted masterFamily)) ∨
      ∃ index raw asset, raws[index]? = some raw ∧ raw.isUnpairedCreated = true ∧
        asset.assetRecordName = raw.recordName ∧ raw.recordName = resolved.stateId ∧
        resolved.resolution = .present asset ∧
        run.1 = ((persistAssetMappingForAsset config asset resolved.recorded state.1).1,
          setAsset state.2 index asset) := by
  obtain ⟨store, events⟩ := state
  unfold resolvePair
  dsimp only
  split
  · exact .inl ⟨rfl, by simp⟩
  · next p hp =>
      have hmem := List.mem_filter.mp (List.mem_of_getLast? hp)
      have hstateId := of_decide_eq_true hmem.2
      obtain ⟨raw, hraw, hunpaired, hrecord⟩ := hpending p hmem.1
      obtain ⟨event, hevent, hkept⟩ := recordName_at hpending h hmem.1
      rw [hevent]
      dsimp only
      split
      · next asset hpresent =>
          split
          · next hname =>
              exact .inr ⟨p.index, raw, asset, hraw, hunpaired,
                (hname.trans hkept).trans hrecord.symm, hrecord.trans hstateId, hpresent, rfl⟩
          · exact .inl ⟨rfl, by simp⟩
      · next masterFamily hdeleted => exact .inl ⟨rfl, fun _ => ⟨masterFamily, hdeleted⟩⟩
      · exact .inl ⟨rfl, by simp⟩

theorem resolvePair_completed (hpending : ∀ p ∈ pending, NamedAt raws p.index p.recordName)
    (h : List.Forall₂ Completed raws state.2) :
    List.Forall₂ Completed raws (resolvePair config pending state resolved).1.2 := by
  rcases resolvePair_cases hpending h with ⟨hsame, -⟩ |
    ⟨index, raw, asset, hraw, hunpaired, hname, -, -, hset⟩
  · rwa [hsame]
  · rw [hset]
    exact setAsset_completed h hraw hunpaired hname

theorem resolveUnresolved_named {events : List Delivered} {config : DownloadConfig}
    {replies : Replies} {store : Store} {unpaired : Unpaired} (h : unpaired.Named events) :
    (resolveUnresolved config replies store unpaired).1.2.Named events := by
  unfold resolveUnresolved
  split
  · exact h
  · exact accum_invariant (I := fun state : Store × Unpaired => state.2.Named events) h
      (fun _ _ _ => resolveIdentity_named)

/-- What is known of the asset-only records of a run. -/
def Input.unpaired (inp : Input) : Unpaired :=
  (accum (collectUnpaired inp.config inp.mapped.1) ⟨[], []⟩ inp.changeEvents.zipIdx).1

/-- What the provider says of the asset-only records whose master is not known. -/
def Input.identityReplies (inp : Input) : List Resolved :=
  inp.replies.resolveIdentities ((inp.unpaired.unresolved.map (·.1)).dedup)

theorem unpaired_named (inp : Input) : inp.unpaired.Named inp.changeEvents :=
  accum_invariant (I := Unpaired.Named inp.changeEvents) ⟨by simp, by simp⟩
    (fun _ _ hentry => collectUnpaired_named hentry)

theorem resolvePending_completed {replies : Replies} {events : List Delivered}
    (hpending : ∀ p ∈ pending, NamedAt raws p.index p.recordName)
    (h : List.Forall₂ Completed raws events) :
    List.Forall₂ Completed raws (resolvePending config replies store events pending).1.2 := by
  unfold resolvePending
  split
  · exact h
  · exact accum_invariant
      (I := fun state : Store × List Delivered => List.Forall₂ Completed raws state.2) h
      (fun _ _ _ => resolvePair_completed hpending)

theorem paired_completed (inp : Input) :
    List.Forall₂ Completed inp.changeEvents inp.paired.1.2 := by
  have hrefl : List.Forall₂ Completed inp.changeEvents inp.changeEvents :=
    List.forall₂_same.mpr (fun event _ => Completed.refl event)
  have hnamed := @resolveUnresolved_named inp.changeEvents inp.config inp.replies
    inp.mapped.1 inp.unpaired (unpaired_named inp)
  unfold Input.paired hydrateUnpairedCreatedAssetDeltas
  dsimp only
  split
  · exact hrefl
  · split
    · exact resolvePending_completed hnamed.pending hrefl
    · exact hrefl

/-! ## state identities -/

theorem selectAssetStateIdentity_erase (event : Delivered) :
    (selectAssetStateIdentity event).1.eraseAsset = event.eraseAsset := by
  unfold selectAssetStateIdentity
  split
  · rfl
  · split
    · split <;> rfl
    · rfl

theorem selectAssetStateIdentity_hasAsset {event : Delivered}
    (hquiet : (selectAssetStateIdentity event).2 = []) (name : String) :
    (selectAssetStateIdentity event).1.hasAsset name ↔ event.hasAsset name := by
  revert hquiet
  unfold selectAssetStateIdentity Delivered.hasAsset
  cases hasset : event.asset with
  | none => simp [hasset]
  | some asset =>
      dsimp only
      split
      · split <;> simp
      · simp [hasset]

/-- **The events of a quiet run**: each is what an event of the feed becomes. -/
theorem identified_completed (hquiet : inp.identityIssues = []) :
    List.Forall₂ Completed inp.changeEvents inp.identified := by
  have hsilent := List.flatMap_eq_nil_iff.mp hquiet
  have hpaired := paired_completed inp
  unfold Input.identified
  rw [List.forall₂_map_right_iff]
  refine (List.forall₂_iff_get.mpr ⟨hpaired.length_eq, fun i hi hi' => ?_⟩)
  have hcompleted := (List.forall₂_iff_get.mp hpaired).2 i hi hi'
  have hname := selectAssetStateIdentity_hasAsset (hsilent _ (List.get_mem inp.paired.1.2 ⟨i, hi'⟩))
  refine ⟨?_, fun name h => ?_, fun name h => ?_⟩
  · rw [selectAssetStateIdentity_erase, hcompleted.erase]
  · exact (hname name).mpr (hcompleted.kept name h)
  · exact hcompleted.brings name ((hname name).mp h)

/-! ## assets of the run -/

variable {name : String}

theorem rememberAssetMapping_isSome {mapping : AssetToMaster} {event : Delivered} :
    (rememberAssetMapping mapping event name).isSome ↔
      (mapping name).isSome ∨ event.hasAsset name := by
  unfold rememberAssetMapping Delivered.hasAsset
  cases hasset : event.asset with
  | none => simp
  | some asset =>
      by_cases hname : asset.assetRecordName = name
      · simp [← hname]
      · simp [Function.update_of_ne (Ne.symm hname), hname]

theorem foldl_rememberAssetMapping {events : List Delivered} {mapping : AssetToMaster} :
    (events.foldl rememberAssetMapping mapping name).isSome ↔
      (mapping name).isSome ∨ ∃ event ∈ events, event.hasAsset name := by
  induction events generalizing mapping with
  | nil => simp
  | cons event events ih => simp [ih, rememberAssetMapping_isSome, or_assoc]

theorem assetToMaster_isSome (hquiet : inp.identityIssues = []) :
    (inp.assetToMaster name).isSome ↔ ∃ event ∈ inp.identified, event.hasAsset name := by
  simp only [Input.assetToMaster, foldl_rememberAssetMapping, Option.isSome_none,
    Bool.false_eq_true, false_or, or_iff_right_iff_imp]
  rintro ⟨event, hevent, hname⟩
  obtain ⟨event', hevent', hcompleted⟩ :=
    (identified_completed hquiet).exists_right hevent
  exact ⟨event', hevent', hcompleted.kept name hname⟩

/-! ## stored mappings -/

/-- The stored master of an asset in the run's library. -/
def Input.storedMaster (inp : Input) (store : Store) (name : String) : Option String :=
  store.getMasterRecordNameForAsset inp.config.library name

/-- The run may find a mapping for the asset although none of its events has the asset: one from
before, or the provider named the master of an asset-only record. -/
def Input.Mapped (inp : Input) (name : String) : Prop :=
  (inp.storedMaster inp.store name).isSome ∨
    ∃ resolved ∈ inp.identityReplies, resolved.stateId = name ∧
      ∃ master, resolved.resolution = .assetPresent master

theorem persist_mapped {asset master library : String} {recorded : Bool} {key : String × String}
    (h : ((persistAssetMasterMapping config asset master library recorded
        store).1.assetMasterMappings
      key).isSome) : (store.assetMasterMappings key).isSome ∨ key = (library, asset) := by
  unfold persistAssetMasterMapping Store.upsertAssetMasterMapping at h
  by_cases hkey : key = (library, asset)
  · exact .inr hkey
  · split at h
    · split at h
      · simp only [Function.update_of_ne hkey] at h
        exact .inl h
      · exact .inl h
    · exact .inl h

theorem persistForAsset_mapped {recorded : Bool} {library name : String}
    (h : ((persistAssetMappingForAsset config asset recorded store).1.getMasterRecordNameForAsset
      library name).isSome) :
    (store.getMasterRecordNameForAsset library name).isSome ∨ asset.assetRecordName = name := by
  rcases persist_mapped h with h | h
  · exact .inl h
  · exact .inr (congrArg Prod.snd h).symm

theorem mapped_mapped (h : (inp.storedMaster inp.mapped.1 name).isSome) :
    inp.Mapped name ∨ ∃ event ∈ inp.changeEvents, event.hasAsset name := by
  let I : Store → Prop := fun store => (inp.storedMaster store name).isSome →
    inp.Mapped name ∨ ∃ event ∈ inp.changeEvents, event.hasAsset name
  have hkept : I inp.mapped.1 := by
    refine @accum_invariant _ _ _ (persistAssetMapping inp.config) inp.store inp.changeEvents I
      (fun h => .inl (.inl h)) (fun store event hevent ih h => ?_)
    unfold persistAssetMapping at h
    split at h
    · exact ih h
    · next asset hasset =>
        rcases persistForAsset_mapped h with h | h
        · exact ih h
        · exact .inr ⟨event, hevent, asset, hasset, h⟩
  exact hkept h

/-- The name is mapped, or an event has the asset. -/
def Input.MappedOr (inp : Input) (store : Store) (events : List Delivered) : Prop :=
  ∀ name, (inp.storedMaster store name).isSome →
    inp.Mapped name ∨ ∃ event ∈ events, event.hasAsset name

theorem resolveUnresolved_mapped :
    inp.MappedOr (resolveUnresolved inp.config inp.replies inp.mapped.1 inp.unpaired).1.1
      inp.changeEvents := by
  unfold resolveUnresolved
  split
  · exact fun _ => mapped_mapped
  · refine accum_invariant
      (I := fun state : Store × Unpaired => inp.MappedOr state.1 inp.changeEvents)
      (fun _ => mapped_mapped)
      (fun state resolved hresolved ih name h => ?_)
    obtain ⟨store, unpaired⟩ := state
    unfold resolveIdentity at h
    dsimp only at h
    split at h
    · exact ih name h
    · split at h
      · next master hmaster =>
          rcases persist_mapped h with h | h
          · exact ih name h
          · exact .inl (.inr ⟨resolved, hresolved, (congrArg Prod.snd h).symm, master, hmaster⟩)
      · exact ih name h
      · exact ih name h

/-- The asset that a record gets has the record's name, so that no asset is lost. -/
theorem setAsset_hasAsset {raws events : List Delivered} {index : Nat} {raw : Delivered}
    (h : List.Forall₂ Completed raws events) (hraw : raws[index]? = some raw)
    (hunpaired : raw.isUnpairedCreated = true) (hname : asset.assetRecordName = raw.recordName)
    (hasset : asset.assetRecordName = name ∨ ∃ event ∈ events, event.hasAsset name) :
    ∃ event ∈ setAsset events index asset, event.hasAsset name := by
  unfold setAsset
  induction h generalizing index with
  | nil => simp at hraw
  | @cons raw' event raws events hcompleted hrest ih =>
      cases index with
      | zero =>
          obtain rfl : raw' = raw := by simpa using hraw
          rcases hasset with hasset | ⟨event', hevent', hname'⟩
          · exact ⟨{ event with asset := some asset }, by simp [List.modify], asset, rfl, hasset⟩
          · rcases List.mem_cons.mp hevent' with rfl | hevent'
            · rcases hcompleted.brings name hname' with hraw | ⟨-, hraw⟩
              · exact absurd hraw (Delivered.not_hasAsset hunpaired name)
              · exact ⟨{ event' with asset := some asset }, by simp [List.modify], asset, rfl,
                  hname.trans hraw⟩
            · exact ⟨event', by simp [List.modify, hevent'], hname'⟩
      | succ index =>
          have hraw' : raws[index]? = some raw := by simpa using hraw
          rcases hasset with hasset | ⟨event', hevent', hname'⟩
          · obtain ⟨event', hevent', hname'⟩ := ih hraw' (.inl hasset)
            exact ⟨event', List.mem_cons_of_mem _ hevent', hname'⟩
          · rcases List.mem_cons.mp hevent' with rfl | hevent'
            · exact ⟨event', by simp [List.modify], hname'⟩
            · obtain ⟨event'', hevent'', hname''⟩ := ih hraw' (.inr ⟨event', hevent', hname'⟩)
              exact ⟨event'', List.mem_cons_of_mem _ hevent'', hname''⟩

theorem resolvePair_mapped (hpending : ∀ p ∈ pending, NamedAt inp.changeEvents p.index p.recordName)
    (hcompleted : List.Forall₂ Completed inp.changeEvents state.2)
    (h : inp.MappedOr state.1 state.2) :
    inp.MappedOr (resolvePair inp.config pending state resolved).1.1
      (resolvePair inp.config pending state resolved).1.2 := by
  rcases resolvePair_cases hpending hcompleted with ⟨hsame, -⟩ |
    ⟨index, raw, asset, hraw, hunpaired, hrecord, -, -, hset⟩
  · rwa [hsame]
  · rw [hset]
    intro name hstored
    rcases persistForAsset_mapped hstored with hstored | hasset
    · rcases h name hstored with hmapped | hevents
      · exact .inl hmapped
      · exact .inr (setAsset_hasAsset hcompleted hraw hunpaired hrecord (.inr hevents))
    · exact .inr (setAsset_hasAsset hcompleted hraw hunpaired hrecord (.inl hasset))

theorem resolvePending_mapped
    (hpending : ∀ p ∈ pending, NamedAt inp.changeEvents p.index p.recordName)
    (h : inp.MappedOr store inp.changeEvents) :
    inp.MappedOr (resolvePending inp.config inp.replies store inp.changeEvents pending).1.1
      (resolvePending inp.config inp.replies store inp.changeEvents pending).1.2 := by
  have hrefl : List.Forall₂ Completed inp.changeEvents inp.changeEvents :=
    List.forall₂_same.mpr (fun event _ => Completed.refl event)
  unfold resolvePending
  split
  · exact h
  · refine (accum_invariant
      (I := fun state : Store × List Delivered => List.Forall₂ Completed inp.changeEvents state.2 ∧
        inp.MappedOr state.1 state.2) ⟨hrefl, h⟩ (fun state resolved _ ih => ?_)).2
    exact ⟨resolvePair_completed hpending ih.1, resolvePair_mapped hpending ih.1 ih.2⟩

/-- A mapping that is stored after the asset-only records is known, or an event has its asset. -/
theorem paired_mapped (inp : Input) : inp.MappedOr inp.paired.1.1 inp.paired.1.2 := by
  have hnamed := @resolveUnresolved_named inp.changeEvents inp.config inp.replies
    inp.mapped.1 inp.unpaired (unpaired_named inp)
  unfold Input.paired hydrateUnpairedCreatedAssetDeltas
  dsimp only
  split
  · exact fun _ => mapped_mapped
  · split
    · exact resolvePending_mapped hnamed.pending resolveUnresolved_mapped
    · exact fun _ => mapped_mapped

theorem applyIncrementalAlbumDelta_mappings (config : DownloadConfig) (now : Int) (store : Store)
    (event : Delivered) :
    (applyIncrementalAlbumDelta config now store event).1.assetMasterMappings =
      store.assetMasterMappings := by
  unfold applyIncrementalAlbumDelta
  split
  · rfl
  · dsimp only
    repeat' split
    all_goals rfl

theorem albums_mappings (inp : Input) :
    inp.albums.1.assetMasterMappings = inp.paired.1.1.assetMasterMappings :=
  accum_invariant
    (I := fun store : Store => store.assetMasterMappings = inp.paired.1.1.assetMasterMappings) rfl
    (fun store event _ h => by rw [applyIncrementalAlbumDelta_mappings, h])

end Kei.Incremental
