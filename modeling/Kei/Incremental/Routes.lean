import Kei.FullEnumeration.Listing
import Kei.Incremental.Relations

/-!
# Kei.Incremental.Routes

The pairs of a run beside the plan of a full enumeration.

The stored memberships are those of a zone, and the changes lead to another
state of it.  What a run routes is in the plan for that state.  An asset that
the changes bring gets all its passes there; one that only joins an album gets
the passes of that album, and one that only leaves an album gets none.
-/

namespace Kei.Incremental

open Accum Changes FullEnumeration StateDb

/-! ## the zone before and after -/

/-- The assets that a zone shows, and the assets of its albums. -/
structure ZoneState where
  assets : List String
  relations : String → List String

/-- What the provider lists: an album shows only what the zone shows. -/
def ZoneState.listing (zone : ZoneState) : ZoneListing where
  library := zone.assets
  album containerId := (zone.relations containerId).filter (· ∈ zone.assets)
  smartFolder _ := []

/-- What the changes say. -/
def Input.FeedSays (inp : Input) (said : String → String → Bool) : Prop :=
  ∀ event ∈ inp.changeEvents, ∀ relation, event.relation = some relation →
    (!relation.isDeleted) = said relation.containerId relation.assetRecordName

namespace Input

variable (inp : Input)

/-- The changes have the asset. -/
def Brings (name : String) : Prop := ∃ event ∈ inp.changeEvents, event.brings name

/-- The changes add the asset to an album of the pass. -/
def Adds (name : String) (index : Nat) : Prop :=
  ∃ event ∈ inp.changeEvents, ∃ relation, event.relation = some relation ∧
    relation.assetRecordName = name ∧ relation.isDeleted = false ∧
    index ∈ inp.routing.albumPassesForContainer relation.containerId

/-- The changes say whether the asset is in the album. -/
def Writes (containerId name : String) : Prop :=
  ∃ event ∈ inp.changeEvents, (relationWrites containerId name event).isSome = true

/-- The changes delete the album. -/
def Deletes (containerId : String) : Prop :=
  ∃ event ∈ inp.changeEvents, ∃ album, event.album = some album ∧
    album.containerId = containerId ∧ album.isDeleted = true

/-- The content of the asset has changed, or one of its memberships. -/
def Changed (name : String) : Prop :=
  inp.Brings name ∨ ∃ containerId, inp.Writes containerId name

/-- The run has the asset for the pass. -/
def RoutesTo (name : String) (index : Nat) : Prop :=
  ∃ asset, asset.assetRecordName = name ∧ (asset, index) ∈ inp.downloadableAssets

end Input

/-- The stored snapshots are complete for `before`, the changes lead from there to `after`, and the
provider answers as the zone then is. -/
structure Leads (inp : Input) (before after : ZoneState) : Prop where
  stored : ∀ containerId, inp.routing.isSelected containerId = true → ∀ name,
    inp.store.memberships.isLive inp.config.library containerId name =
      decide (name ∈ before.relations containerId)
  /-- An asset that the changes have and the zone shows is created there. -/
  created : ∀ event ∈ inp.changeEvents, ∀ name, event.brings name → name ∈ after.assets →
    event.isPlainCreated = true
  shown : ∀ event ∈ inp.changeEvents, ∀ name, event.isPlainCreated = true → event.hasAsset name →
    name ∈ after.assets
  relations : inp.FeedSays (fun containerId name => decide (name ∈ after.relations containerId))
  /-- A membership that the changes do not have is as before, unless they delete its album. -/
  unchanged : ∀ containerId name, inp.routing.isSelected containerId = true →
    ¬inp.Writes containerId name → ¬inp.Deletes containerId →
      (name ∈ before.relations containerId ↔ name ∈ after.relations containerId)
  emptied : ∀ containerId, inp.Deletes containerId → after.relations containerId = []
  /-- The answers for the asset-only records. -/
  identities : ∀ resolved ∈ inp.identityReplies, ∀ masterFamily,
    resolved.resolution = .deleted masterFamily → resolved.stateId ∉ after.assets
  answered : ∀ pairs, (inp.replies.resolvePairs pairs).2 = true → ∀ pair ∈ pairs,
    ∃ resolved ∈ (inp.replies.resolvePairs pairs).1, resolved.stateId = pair.1
  gone : ∀ pairs, ∀ resolved ∈ (inp.replies.resolvePairs pairs).1, ∀ masterFamily,
    resolved.resolution = .deleted masterFamily → resolved.stateId ∉ after.assets
  present : ∀ pairs, ∀ resolved ∈ (inp.replies.resolvePairs pairs).1, ∀ asset,
    resolved.resolution = .present asset → asset.assetRecordName ∈ after.assets
  /-- A scan finds what the zone shows. -/
  scanned : ∀ hydrator names found, inp.replies.hydrateMatchingAssets hydrator names = some found →
    ∀ name, (∃ entry ∈ found, entry.asset.assetRecordName = name) ↔
      name ∈ names ∧ name ∈ after.assets

/-- The run routes the changed assets as a full enumeration plans them. -/
def RoutesAsPlanned (inp : Input) (after : ZoneState) : Prop :=
  ∀ name, inp.Changed name → ∀ index,
    inp.RoutesTo name index ↔ (name, index) ∈ perPassAssets inp.passes after.listing

variable {inp : Input} {before after : ZoneState} {name : String} {index : Nat}

/-! ## asset-only records -/

/-- The name is one of an asset-only record, and the zone shows the asset. -/
def Wanted (raws : List Delivered) (after : ZoneState) (name : String) : Prop :=
  (∃ raw ∈ raws, raw.isUnpairedCreated = true ∧ raw.recordName = name) ∧ name ∈ after.assets

/-- The record is pending, or without a master. -/
def Unpaired.Knows (unpaired : Unpaired) (name : String) : Prop :=
  (∃ p ∈ unpaired.pending, p.recordName = name) ∨ ∃ u ∈ unpaired.unresolved, u.1 = name

theorem collectUnpaired_knows {config : DownloadConfig} {store : Store} {unpaired : Unpaired}
    {entry : Delivered × Nat} (h : unpaired.Knows name) :
    (collectUnpaired config store unpaired entry).1.Knows name := by
  unfold collectUnpaired
  split
  · split
    · exact h
    · exact h.imp_left (fun ⟨p, hp, hname⟩ => ⟨p, List.mem_append_left _ hp, hname⟩)
    · exact h.imp_right (fun ⟨u, hu, hname⟩ => ⟨u, List.mem_append_left _ hu, hname⟩)
  · exact h

theorem unpaired_knows
    (hquiet : (accum (collectUnpaired inp.config inp.mapped.1) ⟨[], []⟩
      inp.changeEvents.zipIdx).2 = []) {raw : Delivered} (hraw : raw ∈ inp.changeEvents)
    (hunpaired : raw.isUnpairedCreated = true) : inp.unpaired.Knows raw.recordName := by
  obtain ⟨i, hi⟩ := List.getElem?_of_mem hraw
  have hentry : (raw, i) ∈ inp.changeEvents.zipIdx := List.mem_zipIdx_iff_getElem?.mpr hi
  obtain ⟨first, rest, hsplit⟩ := List.append_of_mem hentry
  have hstep := accum_quiet.mp hquiet first (raw, i) rest hsplit
  have hhere : (collectUnpaired inp.config inp.mapped.1
      (accum (collectUnpaired inp.config inp.mapped.1) ⟨[], []⟩ first).1
      (raw, i)).1.Knows raw.recordName := by
    revert hstep
    unfold collectUnpaired
    simp only [hunpaired, if_true]
    split
    · simp
    · exact fun _ => .inl ⟨_, List.mem_append_right _ List.mem_cons_self, rfl⟩
    · exact fun _ => .inr ⟨_, List.mem_append_right _ List.mem_cons_self, rfl⟩
  rw [Input.unpaired, hsplit, accum_append_fst, accum_cons_fst]
  exact accum_invariant (I := fun unpaired : Unpaired => unpaired.Knows raw.recordName) hhere
    (fun _ _ _ h => collectUnpaired_knows h)

theorem resolveIdentity_knows {config : DownloadConfig} {state : Store × Unpaired}
    {resolved : Resolved} (hquiet : (resolveIdentity config state resolved).2 = [])
    (hgone : ∀ masterFamily, resolved.resolution = .deleted masterFamily →
      resolved.stateId ≠ name) (h : state.2.Knows name) :
    (resolveIdentity config state resolved).1.2.Knows name := by
  obtain ⟨store, unpaired⟩ := state
  have hother (hne : resolved.stateId ≠ name) (u : String × Nat) (hu : u ∈ unpaired.unresolved)
      (hname : u.1 = name) : u ∈ unpaired.unresolved.filter (fun u => u.1 ≠ resolved.stateId) := by
    simp [hu, hname, hne.symm]
  revert hquiet
  unfold resolveIdentity
  dsimp only
  split
  · simp
  · split
    · next master hpresent =>
        intro _
        rcases h with ⟨p, hp, hname⟩ | ⟨u, hu, hname⟩
        · exact .inl ⟨p, List.mem_append_left _ hp, hname⟩
        · by_cases hsame : resolved.stateId = name
          · have hindex : u.2 ∈ (unpaired.unresolved.filter
                (fun u => u.1 = resolved.stateId)).map (·.2) :=
              List.mem_map.mpr ⟨u, by simpa [hname, hsame] using hu, rfl⟩
            exact .inl ⟨⟨u.2, resolved.stateId, master⟩,
              List.mem_append_right _ (List.mem_map.mpr ⟨u.2, hindex, rfl⟩), hsame⟩
          · exact .inr ⟨u, hother hsame u hu hname, hname⟩
    · next hdeleted =>
        intro _
        exact h.imp_right (fun ⟨u, hu, hname⟩ => ⟨u, hother (hgone _ hdeleted) u hu hname, hname⟩)
    · simp

theorem resolveUnresolved_pending (h : Leads inp before after)
    (hnamed : inp.unpaired.Named inp.changeEvents)
    (hquiet : (resolveUnresolved inp.config inp.replies inp.mapped.1 inp.unpaired).2 = []) :
    let resolved := (resolveUnresolved inp.config inp.replies inp.mapped.1 inp.unpaired).1.2
    resolved.Named inp.changeEvents ∧ ∀ name ∈ after.assets, inp.unpaired.Knows name →
      ∃ p ∈ resolved.pending, p.recordName = name := by
  revert hquiet
  unfold resolveUnresolved
  split
  · next hnone =>
      intro _
      refine ⟨hnamed, fun name _ hknown => hknown.resolve_right ?_⟩
      simp [List.isEmpty_iff.mp hnone]
  · intro hquiet
    rw [List.append_eq_nil_iff, issueUnless_eq_nil, List.isEmpty_iff] at hquiet
    have hkept := accum_invariant_quiet
      (I := fun state : Store × Unpaired => state.2.Named inp.changeEvents ∧
        ∀ name ∈ after.assets, inp.unpaired.Knows name → state.2.Knows name)
      hquiet.1 ⟨hnamed, fun _ _ hknown => hknown⟩ (fun state resolved hresolved hstep ih =>
        ⟨resolveIdentity_named ih.1, fun name hshown hknown =>
          resolveIdentity_knows hstep (fun masterFamily hdeleted hname =>
            h.identities resolved hresolved masterFamily hdeleted (hname ▸ hshown))
            (ih.2 name hshown hknown)⟩)
    refine ⟨hkept.1, fun name hshown hknown => (hkept.2 name hshown hknown).resolve_right ?_⟩
    simp [hquiet.2]

/-- The events that are asset-only records have no other asset than the ones that the zone
shows. -/
abbrev AreShown (after : ZoneState) : List Delivered → List Delivered → Prop :=
  List.Forall₂ (fun raw event => ∀ name, event.hasAsset name →
    raw.hasAsset name ∨ name ∈ after.assets)

variable {asset : PhotoAsset}

theorem setAsset_areShown {raws events : List Delivered} {i : Nat} (h : AreShown after raws events)
    (hasset : asset.assetRecordName ∈ after.assets) :
    AreShown after raws (setAsset events i asset) := by
  unfold setAsset
  induction h generalizing i with
  | nil => simp
  | cons hhere hrest ih =>
      cases i with
      | zero =>
          refine .cons ?_ hrest
          rintro name ⟨asset', hsame, rfl⟩
          cases hsame
          exact .inr hasset
      | succ i => exact .cons hhere ih

/-- The events are completed with assets that the zone shows. -/
structure Completing (raws : List Delivered) (after : ZoneState) (events : List Delivered) :
    Prop where
  completed : List.Forall₂ Completed raws events
  shown : AreShown after raws events

theorem Completing.refl (raws : List Delivered) (after : ZoneState) :
    Completing raws after raws :=
  ⟨List.forall₂_same.mpr (fun event _ => Completed.refl event),
    List.forall₂_same.mpr (fun _ _ _ h => .inl h)⟩

/-- An asset that is found for the last record of its name gives it its asset. -/
theorem resolvePair_completing {raws : List Delivered} {config : DownloadConfig}
    {pending : List Pending} {state : Store × List Delivered} {resolved : Resolved}
    (hpending : ∀ p ∈ pending, NamedAt raws p.index p.recordName)
    (hpresent : ∀ asset, resolved.resolution = .present asset →
      asset.assetRecordName ∈ after.assets)
    (hquiet : (resolvePair config pending state resolved).2 = [])
    (h : Completing raws after state.2) :
    let events := (resolvePair config pending state resolved).1.2
    Completing raws after events ∧
      (∀ name, (∃ event ∈ state.2, event.hasAsset name) → ∃ event ∈ events, event.hasAsset name) ∧
      ((∃ masterFamily, resolved.resolution = .deleted masterFamily) ∨
        ∃ event ∈ events, event.hasAsset resolved.stateId) := by
  rcases resolvePair_cases hpending h.completed with ⟨hsame, hdeleted⟩ |
    ⟨index, raw, asset, hraw, hunpaired, hrecord, hstateId, hasset, hset⟩
  · rw [hsame]
    exact ⟨h, fun _ hthere => hthere, .inl (hdeleted hquiet)⟩
  · rw [hset]
    have hthere (name : String) (hname : asset.assetRecordName = name ∨
        ∃ event ∈ state.2, event.hasAsset name) :=
      setAsset_hasAsset h.completed hraw hunpaired hrecord hname
    exact ⟨⟨setAsset_completed h.completed hraw hunpaired hrecord,
      setAsset_areShown h.shown (hpresent asset hasset)⟩,
      fun name hbefore => hthere name (.inr hbefore),
      .inr (hthere _ (.inl (hrecord.trans hstateId)))⟩

theorem resolvePending_completing (h : Leads inp before after) {store : Store}
    {pending : List Pending}
    (hpending : ∀ p ∈ pending, NamedAt inp.changeEvents p.index p.recordName)
    (hquiet : (resolvePending inp.config inp.replies store inp.changeEvents pending).2 = []) :
    let events := (resolvePending inp.config inp.replies store inp.changeEvents pending).1.2
    Completing inp.changeEvents after events ∧
      ∀ p ∈ pending, p.recordName ∈ after.assets →
        ∃ event ∈ events, event.hasAsset p.recordName := by
  revert hquiet
  unfold resolvePending
  split
  · next hnone =>
      exact fun _ => ⟨Completing.refl _ _, by simp [List.isEmpty_iff.mp hnone]⟩
  · intro hquiet
    dsimp only at hquiet ⊢
    rw [List.append_eq_nil_iff, issueUnless_eq_nil] at hquiet
    obtain ⟨hquiet, hcomplete⟩ := hquiet
    have hstep (state : Store × List Delivered) (resolved : Resolved) (hresolved : resolved ∈
        (inp.replies.resolvePairs (pending.map (fun p => (p.recordName, p.masterRecordName)))).1) :=
      @resolvePair_completing after inp.changeEvents inp.config pending state resolved hpending
        (h.present _ resolved hresolved)
    refine ⟨accum_invariant_quiet
      (I := fun state : Store × List Delivered => Completing inp.changeEvents after state.2)
      hquiet (Completing.refl _ _) (fun state resolved hresolved hthis ih =>
        (hstep state resolved hresolved hthis ih).1), fun p hp hshown => ?_⟩
    obtain ⟨resolved, hresolved, hname⟩ := h.answered _ hcomplete _ (List.mem_map_of_mem hp)
    have hstays : resolved.stateId ∈ after.assets := hname ▸ hshown
    have hdeleted := h.gone _ resolved hresolved
    obtain ⟨first, rest, hsplit⟩ := List.append_of_mem hresolved
    rw [hsplit] at hquiet hstep ⊢
    rw [accum_append_snd, List.append_eq_nil_iff, accum_cons_snd, List.append_eq_nil_iff] at hquiet
    obtain ⟨hfirst, hthis, hrest⟩ := hquiet
    have hbefore := accum_invariant_quiet
      (I := fun state : Store × List Delivered => Completing inp.changeEvents after state.2)
      hfirst (Completing.refl _ _) (fun state resolved hresolved hthis ih =>
        (hstep state resolved (List.mem_append_left _ hresolved) hthis ih).1)
    obtain ⟨hhere, -, hfound⟩ := hstep _ resolved (by simp) hthis hbefore
    replace hfound := hfound.resolve_left (fun ⟨masterFamily, hgone⟩ =>
      hdeleted masterFamily hgone hstays)
    rw [hname] at hfound
    rw [accum_append_fst, accum_cons_fst]
    exact (accum_invariant_quiet
      (I := fun state : Store × List Delivered => Completing inp.changeEvents after state.2 ∧
        ∃ event ∈ state.2, event.hasAsset p.recordName) hrest ⟨hhere, hfound⟩
      (fun state other hother hthis ih =>
        have hkept := hstep state other (by simp [hother]) hthis ih.1
        ⟨hkept.1, hkept.2.1 _ ih.2⟩)).2

/-- **The asset-only records** of a quiet run get their assets, if the zone shows them. -/
theorem paired_completing (h : Leads inp before after) (hquiet : inp.paired.2 = []) :
    Completing inp.changeEvents after inp.paired.1.2 ∧
      ∀ name, Wanted inp.changeEvents after name →
        ∃ event ∈ inp.paired.1.2, event.hasAsset name := by
  revert hquiet
  unfold Input.paired hydrateUnpairedCreatedAssetDeltas
  dsimp only
  split
  · next hnone =>
      intro hquiet
      refine ⟨Completing.refl _ _, fun name hwanted => ?_⟩
      obtain ⟨⟨raw, hraw, hunpaired, rfl⟩, -⟩ := hwanted
      have hknown := unpaired_knows hquiet hraw hunpaired
      rw [Bool.and_eq_true, List.isEmpty_iff, List.isEmpty_iff] at hnone
      simp [Unpaired.Knows, Input.unpaired, hnone] at hknown
  · split
    · intro hquiet
      rw [List.append_eq_nil_iff, List.append_eq_nil_iff] at hquiet
      obtain ⟨⟨hcollected, hresolved⟩, hpaired⟩ := hquiet
      obtain ⟨hnamed', hpending⟩ := resolveUnresolved_pending h (unpaired_named inp) hresolved
      obtain ⟨hcompleting, hfound⟩ := resolvePending_completing h hnamed'.pending hpaired
      refine ⟨hcompleting, fun name ⟨⟨raw, hraw, hunpaired, hrecord⟩, hshown⟩ => ?_⟩
      have hknown := hrecord ▸ unpaired_knows hcollected hraw hunpaired
      obtain ⟨p, hp, rfl⟩ := hpending name hshown hknown
      exact hfound p hp hshown
    · simp

/-! ## created events -/

/-- The created event that has the asset, after its completion. -/
def Input.Creates (inp : Input) (name : String) : Prop :=
  ∃ event ∈ inp.identified, event.isPlainCreated = true ∧ event.hasAsset name

/-- The assets that the changes bring and the zone shows are those of the created events. -/
theorem creates_iff (h : Leads inp before after) (hpaired : inp.paired.2 = [])
    (hidentities : inp.identityIssues = []) :
    inp.Creates name ↔ inp.Brings name ∧ name ∈ after.assets := by
  have hsilent := List.flatMap_eq_nil_iff.mp hidentities
  have hcompleted := identified_completed hidentities
  obtain ⟨hcompleting, hwanted⟩ := paired_completing h hpaired
  constructor
  · rintro ⟨event, hevent, hplain, hname⟩
    obtain ⟨raw, hraw, hthis⟩ := hcompleted.exists_left hevent
    refine ⟨⟨raw, hraw, hthis.brings name hname⟩, ?_⟩
    obtain ⟨paired, hmem, rfl⟩ := List.mem_map.mp hevent
    have hpairedName := (selectAssetStateIdentity_hasAsset (hsilent paired hmem) name).mp hname
    have hboth := List.Forall₂.mp (fun _ _ => And.intro) hcompleting.completed hcompleting.shown
    obtain ⟨source, hsource, hthis, hshown⟩ := hboth.exists_left hmem
    have herase := selectAssetStateIdentity_erase paired
    have hsame : (selectAssetStateIdentity paired).1.isPlainCreated = paired.isPlainCreated := by
      show (selectAssetStateIdentity paired).1.eraseAsset.isPlainCreated =
        paired.eraseAsset.isPlainCreated
      rw [herase]
    refine (hshown name hpairedName).elim (h.shown source hsource name ?_) id
    exact (hthis.isPlainCreated.symm.trans hsame.symm).trans hplain
  · rintro ⟨⟨raw, hraw, hbrings⟩, hshown⟩
    have hthere : ∃ event ∈ inp.identified, event.hasAsset name := by
      rcases hbrings with hname | hunpaired
      · obtain ⟨event, hevent, hthis⟩ := hcompleted.exists_right hraw
        exact ⟨event, hevent, hthis.kept name hname⟩
      · obtain ⟨paired, hmem, hname⟩ := hwanted name ⟨⟨raw, hraw, hunpaired⟩, hshown⟩
        exact ⟨_, List.mem_map_of_mem hmem,
          (selectAssetStateIdentity_hasAsset (hsilent paired hmem) name).mpr hname⟩
    obtain ⟨event, hevent, hname⟩ := hthere
    obtain ⟨source, hsource, hthis⟩ := hcompleted.exists_left hevent
    have hplain := h.created source hsource name (hthis.brings name hname) hshown
    exact ⟨event, hevent, hthis.isPlainCreated.trans hplain, hname⟩

/-- The pass is one of the selected albums that have the asset, or unfiled when none has it. -/
def Input.Files (inp : Input) (has : String → Prop) (index : Nat) : Prop :=
  (∃ containerId, has containerId ∧ index ∈ inp.routing.albumPassesForContainer containerId) ∨
    (∀ containerId, inp.routing.isSelected containerId = true → ¬has containerId) ∧
      index ∈ inp.routing.unfiledPasses

theorem Input.Files.congr {has has' : String → Prop}
    (h : ∀ containerId, inp.routing.isSelected containerId = true →
      (has containerId ↔ has' containerId)) : inp.Files has index ↔ inp.Files has' index := by
  have hpass (containerId : String) : has containerId ∧
      index ∈ inp.routing.albumPassesForContainer containerId ↔
        has' containerId ∧ index ∈ inp.routing.albumPassesForContainer containerId :=
    and_congr_left (fun hindex => h containerId (isSelected_iff.mpr ⟨index, hindex⟩))
  have hnone : (∀ containerId, inp.routing.isSelected containerId = true → ¬has containerId) ↔
      ∀ containerId, inp.routing.isSelected containerId = true → ¬has' containerId :=
    forall₂_congr (fun containerId hselected => not_congr (h containerId hselected))
  simp only [Input.Files, hpass, hnone]

/-- The passes of a created asset, with or without selected albums. -/
theorem mem_route_files {membershipsRead : Bool} {passIndices : List Nat}
    (hroute : routeIncrementalAssetToPasses inp.config inp.routing inp.membershipDb asset
      membershipsRead = some passIndices) :
    index ∈ passIndices ↔ inp.Files (fun containerId => inp.membershipDb.isLive
      inp.config.library containerId asset.assetRecordName = true) index := by
  have hids (containerId : String) : containerId ∈ inp.routing.selectedContainerIds ↔
      inp.routing.isSelected containerId = true := mem_selectedContainerIds
  cases halbums : inp.routing.hasSelectedAlbums with
  | true =>
      rw [mem_route hroute halbums, Input.Files]
      refine or_congr ⟨?_, ?_⟩ (and_congr_left' ?_)
      · rintro ⟨containerId, -, hlive, hindex⟩
        exact ⟨containerId, hlive, hindex⟩
      · rintro ⟨containerId, hlive, hindex⟩
        exact ⟨containerId, (hids _).mpr (isSelected_iff.mpr ⟨index, hindex⟩), hlive, hindex⟩
      · simp [hids]
  | false =>
      have hnone (containerId : String) :
          inp.routing.albumPassesForContainer containerId = [] := by
        rw [List.eq_nil_iff_forall_not_mem]
        exact fun i hi => by simp [hasSelectedAlbums_of_mem hi] at halbums
      obtain rfl : inp.routing.unfiledPasses = passIndices := by
        simpa [routeIncrementalAssetToPasses, halbums] using hroute
      simp [Input.Files, hnone, IncrementalPassRouting.isSelected]

theorem routeEvent_source {db : MembershipDb} {event : Delivered}
    (h : (asset, index) ∈ (routeEvent inp db event).1) :
    event.isPlainCreated = true ∧ event.asset = some asset := by
  unfold routeEvent at h
  split at h
  · cases h
  · next hplain =>
      split at h
      · next hreason =>
          split at h
          · cases h
          · next asset' hasset =>
              split at h
              · obtain ⟨i, -, hsame⟩ := List.mem_map.mp h
                cases hsame
                simpa [Delivered.isPlainCreated, hreason, hasset, and_assoc] using hplain
              · cases h
      all_goals cases h

theorem mem_routed (hrouting : inp.routingIssues = []) :
    (∃ asset, asset.assetRecordName = name ∧ (asset, index) ∈ inp.routed) ↔
      inp.Creates name ∧ inp.Files (fun containerId =>
        inp.membershipDb.isLive inp.config.library containerId name = true) index := by
  have hsilent := List.flatMap_eq_nil_iff.mp hrouting
  constructor
  · rintro ⟨asset, rfl, hmem⟩
    obtain ⟨event, hevent, hpair⟩ := List.mem_flatMap.mp hmem
    obtain ⟨hplain, hasset⟩ := routeEvent_source hpair
    obtain ⟨passIndices, hroute, hpairs⟩ := routeEvent_plain hplain hasset (hsilent event hevent)
    rw [hpairs] at hpair
    obtain ⟨i, hi, hsame⟩ := List.mem_map.mp hpair
    obtain rfl : i = index := congrArg Prod.snd hsame
    exact ⟨⟨event, hevent, hplain, asset, hasset, rfl⟩, (mem_route_files hroute).mp hi⟩
  · rintro ⟨⟨event, hevent, hplain, asset, hasset, rfl⟩, hfiles⟩
    obtain ⟨passIndices, hroute, hpairs⟩ := routeEvent_plain hplain hasset (hsilent event hevent)
    refine ⟨asset, rfl, List.mem_flatMap.mpr ⟨event, hevent, ?_⟩⟩
    rw [hpairs]
    exact List.mem_map_of_mem ((mem_route_files hroute).mpr hfiles)

/-- The live memberships of an asset after a quiet run, unless they are in a deleted album. -/
theorem membershipDb_after (h : Leads inp before after) (hdb : inp.config.hasStateDb = true)
    (hidentities : inp.identityIssues = []) (hrelations : inp.relations.2 = [])
    {containerId : String} (hselected : inp.routing.isSelected containerId = true)
    (hkept : inp.Deletes containerId → name ∈ before.relations containerId →
      inp.Writes containerId name) :
    inp.membershipDb.isLive inp.config.library containerId name = true ↔
      name ∈ after.relations containerId := by
  rw [membershipDb_isLive hdb hidentities (relationsRecorded_of_quiet hdb hrelations)]
  cases hlast : lastWrite (relationWrites containerId name) inp.changeEvents with
  | some live =>
      obtain ⟨event, hevent, hwrites⟩ := exists_of_lastWrite hlast
      unfold relationWrites at hwrites
      split at hwrites
      · cases hwrites
      · next relation hrelation =>
          split at hwrites
          · next hkey =>
              obtain ⟨rfl, rfl⟩ := hkey
              have hanswer := h.relations event hevent relation hrelation
              rw [Option.some.inj hwrites] at hanswer
              simp [hanswer]
          · cases hwrites
  | none =>
      have hsilent : ¬inp.Writes containerId name := by
        rintro ⟨event, hevent, hsome⟩
        simp [lastWrite_eq_none.mp hlast event hevent] at hsome
      rw [Option.getD_none, h.stored containerId hselected name, decide_eq_true_eq]
      by_cases hdeleted : inp.Deletes containerId
      · have hbefore : name ∉ before.relations containerId :=
          fun hmem => hsilent (hkept hdeleted hmem)
        simp [hbefore, h.emptied containerId hdeleted]
      · exact h.unchanged containerId name hselected hsilent hdeleted

theorem mem_unfiled :
    index ∈ inp.routing.unfiledPasses ↔
      ∃ pass, inp.passes[index]? = some pass ∧ pass.kind = .unfiled := by
  simp [Input.routing, IncrementalPassRouting.fromPasses, List.mem_zipIdx_iff_getElem?]

/-- The plan of a full enumeration for an asset that the zone shows. -/
theorem mem_plan (hresolved : ResolvedPasses inp.passes) :
    (name, index) ∈ perPassAssets inp.passes after.listing ↔
      name ∈ after.assets ∧ inp.Files (fun containerId => name ∈ after.relations containerId)
        index := by
  have hselected (containerId : String) :
      inp.routing.isSelected containerId = true ↔ ∃ pass ∈ inp.passes, pass.kind = .album ∧
        pass.containerId = some containerId := by
    rw [isSelected_iff]
    constructor
    · rintro ⟨i, hi⟩
      obtain ⟨pass, hpass, hkind, hcontainer⟩ := mem_albumPasses.mp hi
      exact ⟨pass, List.mem_of_getElem? hpass, hkind, hcontainer⟩
    · rintro ⟨pass, hpass, hkind, hcontainer⟩
      obtain ⟨i, hi⟩ := List.getElem?_of_mem hpass
      exact ⟨i, mem_albumPasses.mpr ⟨pass, hi, hkind, hcontainer⟩⟩
  rw [mem_perPassAssets hresolved]
  constructor
  · rintro ⟨pass, hpass, ⟨hkind, hmem⟩ | ⟨hkind, hshown, hnone⟩⟩
    · obtain ⟨containerId, hcontainer, hlisted⟩ := (mem_passStream_album hkind).mp hmem
      have hlisted := List.mem_filter.mp hlisted
      exact ⟨of_decide_eq_true hlisted.2, .inl ⟨containerId, hlisted.1,
        mem_albumPasses.mpr ⟨pass, hpass, hkind, hcontainer⟩⟩⟩
    · replace hshown : name ∈ after.assets := hshown
      refine ⟨hshown, .inr ⟨fun containerId hthis hmem => ?_, mem_unfiled.mpr ⟨pass, hpass, hkind⟩⟩⟩
      obtain ⟨album, halbum, hkind, hcontainer⟩ := (hselected containerId).mp hthis
      exact hnone ⟨album, halbum, hkind, containerId, hcontainer,
        List.mem_filter.mpr ⟨hmem, by simpa using hshown⟩⟩
  · rintro ⟨hshown, ⟨containerId, hmem, hindex⟩ | ⟨hnone, hindex⟩⟩
    · obtain ⟨pass, hpass, hkind, hcontainer⟩ := mem_albumPasses.mp hindex
      refine ⟨pass, hpass, .inl ⟨hkind, (mem_passStream_album hkind).mpr
        ⟨containerId, hcontainer, List.mem_filter.mpr ⟨hmem, by simpa using hshown⟩⟩⟩⟩
    · obtain ⟨pass, hpass, hkind⟩ := mem_unfiled.mp hindex
      refine ⟨pass, hpass, .inr ⟨hkind, hshown, ?_⟩⟩
      rintro ⟨album, halbum, hkind, containerId, hcontainer, hlisted⟩
      exact hnone containerId ((hselected containerId).mpr ⟨album, halbum, hkind, hcontainer⟩)
        (List.mem_filter.mp hlisted).1

/-! ## assets that only a relation brings -/

theorem mem_passIndicesByAsset (hidentities : inp.identityIssues = []) :
    index ∈ passIndicesByAsset inp.missing name ↔
      inp.assetToMaster name = none ∧ inp.Adds name index := by
  have hcompleted := identified_completed hidentities
  simp only [passIndicesByAsset, List.mem_dedup, List.mem_flatMap, List.mem_filter,
    decide_eq_true_eq, Input.missing, List.mem_filterMap]
  constructor
  · rintro ⟨m, ⟨⟨event, hevent, hmissing⟩, rfl⟩, hindex⟩
    obtain ⟨raw, hraw, hthis⟩ := hcompleted.exists_left hevent
    unfold missingRelation at hmissing
    split at hmissing
    · cases hmissing
    · next relation hrelation =>
        split at hmissing
        · cases hmissing
        · next hadded =>
            split at hmissing
            · cases hmissing
            · next first rest hpasses =>
                split at hmissing
                · cases hmissing
                · next hnew =>
                    cases hmissing
                    refine ⟨by simpa using hnew, raw, hraw, relation,
                      hthis.relation.symm.trans hrelation, rfl, by simpa using hadded, ?_⟩
                    rw [hpasses]
                    exact hindex
  · rintro ⟨hnew, raw, hraw, relation, hrelation, rfl, hadded, hindex⟩
    obtain ⟨event, hevent, hthis⟩ := hcompleted.exists_right hraw
    cases hpasses : inp.routing.albumPassesForContainer relation.containerId with
    | nil => simp [hpasses] at hindex
    | cons first rest =>
        refine ⟨⟨first, relation.assetRecordName, first :: rest⟩, ⟨⟨event, hevent, ?_⟩, rfl⟩,
          hpasses ▸ hindex⟩
        simp [missingRelation, hthis.relation, hrelation, hadded, hpasses, hnew]

/-- What the hydration has planned are missing assets that the zone shows. -/
def Hydration.Sound (inp : Input) (after : ZoneState) (state : Hydration) : Prop :=
  ∀ asset index, (asset, index) ∈ state.downloadableAssets →
    asset.assetRecordName ∈ after.assets ∧
      index ∈ passIndicesByAsset inp.missing asset.assetRecordName

variable {hasContext : Bool} {state : Hydration} {found : HydratedAsset}

theorem hydrateAsset_sound (hquiet : (hydrateAsset inp hasContext inp.missing state found).2 = [])
    (hshown : found.asset.assetRecordName ∈ after.assets) (h : state.Sound inp after) :
    (hydrateAsset inp hasContext inp.missing state found).1.Sound inp after := by
  obtain ⟨asset, hname, hnext⟩ := hydrateAsset_quiet hquiet
  rw [hnext]
  intro asset' i hmem
  rcases List.mem_append.mp hmem with hmem | hmem
  · exact h asset' i hmem
  · obtain ⟨j, hj, hsame⟩ := List.mem_map.mp hmem
    cases hsame
    rw [(inp.replies.passIndexOrder_perm _ _).mem_iff] at hj
    exact ⟨hname ▸ hshown, hname ▸ hj⟩

theorem hydratePass_sound {hydrator : Nat} (h : Leads inp before after)
    (hquiet : (hydratePass inp hasContext inp.missing state hydrator).2 = [])
    (hstate : state.Sound inp after) :
    (hydratePass inp hasContext inp.missing state hydrator).1.Sound inp after := by
  revert hquiet
  unfold hydratePass
  dsimp only
  split
  · exact fun _ => hstate
  · split
    · simp
    · next found hfound =>
        refine fun hquiet => accum_invariant_quiet (I := Hydration.Sound inp after) hquiet hstate
          (fun state entry hentry hstep ih => hydrateAsset_sound hstep ?_ ih)
        exact ((h.scanned _ _ found hfound _).mp ⟨entry, hentry, rfl⟩).2

variable {missing : List MissingRelation}

theorem hydrateAsset_known (hquiet : (hydrateAsset inp hasContext missing state found).2 = []) :
    ((hydrateAsset inp hasContext missing state found).1.assetToMaster name).isSome =
      (decide (name = found.asset.assetRecordName) || (state.assetToMaster name).isSome) := by
  obtain ⟨asset, -, hnext⟩ := hydrateAsset_quiet hquiet
  rw [hnext]
  by_cases hname : name = found.asset.assetRecordName
  · simp [hname]
  · simp [hname]

/-- The names that were found are known. -/
def Hydration.Keeps (state : Hydration) : Prop :=
  ∀ name ∈ state.hydratedAssetRecordNames, (state.assetToMaster name).isSome = true

theorem hydrateAsset_keeps (hquiet : (hydrateAsset inp hasContext missing state found).2 = [])
    (h : state.Keeps) : (hydrateAsset inp hasContext missing state found).1.Keeps := by
  intro name hname
  rw [hydrateAsset_known hquiet]
  obtain ⟨asset, -, hnext⟩ := hydrateAsset_quiet hquiet
  rw [hnext] at hname
  rcases List.mem_append.mp hname with hname | hname
  · simp [h name hname]
  · simp [List.mem_singleton.mp hname]

theorem hydrateAssets_known {found : List HydratedAsset}
    (hquiet : (accum (hydrateAsset inp hasContext missing) state found).2 = [])
    (hkeeps : state.Keeps) : let next := (accum (hydrateAsset inp hasContext missing) state found).1
    next.Keeps ∧ ∀ name, (next.assetToMaster name).isSome = true ↔
      (∃ entry ∈ found, entry.asset.assetRecordName = name) ∨
        (state.assetToMaster name).isSome = true := by
  induction found generalizing state with
  | nil => exact ⟨hkeeps, by simp⟩
  | cons entry found ih =>
      rw [accum_cons_snd, List.append_eq_nil_iff] at hquiet
      obtain ⟨hrest, hknown⟩ := ih hquiet.2 (hydrateAsset_keeps hquiet.1 hkeeps)
      refine ⟨hrest, fun name => ?_⟩
      rw [accum_cons_fst, hknown name, hydrateAsset_known hquiet.1]
      grind

/-- One scan keeps what is known, and finds the missing assets of its pass. -/
theorem hydratePass_known {hydrator : Nat} (h : Leads inp before after)
    (hquiet : (hydratePass inp hasContext inp.missing state hydrator).2 = [])
    (hkeeps : state.Keeps) : let next := (hydratePass inp hasContext inp.missing state hydrator).1
    next.Keeps ∧ (∀ name, (state.assetToMaster name).isSome = true →
        (next.assetToMaster name).isSome = true) ∧
      (hydrator < inp.passes.length → ∀ m ∈ inp.missing, m.hydrator = hydrator →
        m.assetRecordName ∈ after.assets →
          (next.assetToMaster m.assetRecordName).isSome = true) := by
  have hnames (m : MissingRelation) (hm : m ∈ inp.missing) (hpass : m.hydrator = hydrator)
      (hnew : ¬(state.assetToMaster m.assetRecordName).isSome = true) :
      m.assetRecordName ∈ (((inp.missing.filter (fun m => m.hydrator = hydrator)).map
        (·.assetRecordName)).dedup).filter (fun name =>
          (state.assetToMaster name).isNone && !state.hydratedAssetRecordNames.contains name) := by
    have hother : m.assetRecordName ∉ state.hydratedAssetRecordNames :=
      fun hmem => hnew (hkeeps _ hmem)
    have hlisted : ∃ m' ∈ inp.missing, m'.hydrator = hydrator ∧
        m'.assetRecordName = m.assetRecordName := ⟨m, hm, hpass, rfl⟩
    simpa [hother, and_assoc] using ⟨hlisted, by simpa using hnew⟩
  revert hquiet
  unfold hydratePass
  dsimp only
  split
  · next hskip =>
      refine fun _ => ⟨hkeeps, fun _ hknown => hknown, fun hlt m hm hpass _ => ?_⟩
      by_contra hnew
      have hmem := hnames m hm hpass hnew
      simp only [Bool.or_eq_true, decide_eq_true_eq, List.isEmpty_iff] at hskip
      rw [hskip.resolve_right (by omega)] at hmem
      cases hmem
  · split
    · simp
    · next found hfound =>
        intro hquiet
        obtain ⟨hnext, hknown⟩ := hydrateAssets_known hquiet hkeeps
        refine ⟨hnext, fun name hthis => (hknown name).mpr (.inr hthis),
          fun _ m hm hpass hshown => (hknown _).mpr ?_⟩
        by_cases hthis : (state.assetToMaster m.assetRecordName).isSome = true
        · exact .inr hthis
        · exact .inl ((h.scanned _ _ found hfound _).mpr ⟨hnames m hm hpass hthis, hshown⟩)

theorem missing_hydrator {m : MissingRelation} (hm : m ∈ inp.missing) :
    m.hydrator < inp.passes.length := by
  obtain ⟨event, -, hmissing⟩ := List.mem_filterMap.mp hm
  unfold missingRelation at hmissing
  split at hmissing
  · cases hmissing
  · next relation _ =>
      split at hmissing
      · cases hmissing
      · split at hmissing
        · cases hmissing
        · next first rest hpasses =>
            split at hmissing
            · cases hmissing
            · cases hmissing
              have hfirst : first ∈ inp.routing.albumPassesForContainer relation.containerId := by
                simp [hpasses]
              obtain ⟨pass, hpass, -⟩ := mem_albumPasses.mp hfirst
              exact (List.getElem?_eq_some_iff.mp hpass).1

theorem hydrated_eq (inp : Input) :
    inp.hydrated = accum
      (hydratePass inp (inp.identified.any (fun event => event.reason = .created)) inp.missing)
      ⟨inp.albums.1, inp.assetToMaster, inp.completeDeltaAssets, [], []⟩
      (inp.replies.hydratorOrder ((inp.missing.map (·.hydrator)).dedup)) := rfl

/-- A missing asset that the zone shows is known after the hydration. -/
theorem hydrated_known (h : Leads inp before after) (hquiet : inp.hydrated.2 = [])
    {m : MissingRelation} (hm : m ∈ inp.missing) (hshown : m.assetRecordName ∈ after.assets) :
    (inp.hydrated.1.assetToMaster m.assetRecordName).isSome = true := by
  have hlisted : m.hydrator ∈
      inp.replies.hydratorOrder ((inp.missing.map (·.hydrator)).dedup) := by
    rw [(inp.replies.hydratorOrder_perm _).mem_iff, List.mem_dedup]
    exact List.mem_map_of_mem hm
  obtain ⟨first, rest, hsplit⟩ := List.append_of_mem hlisted
  rw [hydrated_eq, hsplit, accum_append_snd, List.append_eq_nil_iff, accum_cons_snd,
    List.append_eq_nil_iff] at hquiet
  obtain ⟨hfirst, hhere, hrest⟩ := hquiet
  rw [hydrated_eq, hsplit, accum_append_fst, accum_cons_fst]
  have hkeeps := accum_invariant_quiet (I := Hydration.Keeps) hfirst (by simp [Hydration.Keeps])
    (fun _ _ _ hstep ih => (hydratePass_known h hstep ih).1)
  obtain ⟨hnext, -, hfound⟩ := hydratePass_known h hhere hkeeps
  have hknown := hfound (missing_hydrator hm) m hm rfl hshown
  exact (accum_invariant_quiet (I := fun state : Hydration => state.Keeps ∧
      (state.assetToMaster m.assetRecordName).isSome = true) hrest ⟨hnext, hknown⟩
    (fun _ _ _ hstep ih =>
      have hpass := hydratePass_known h hstep ih.1
      ⟨hpass.1, hpass.2.1 _ ih.2⟩)).2

/-- A quiet hydration plans the missing assets that the zone shows, and nothing else. -/
theorem mem_hydrated (h : Leads inp before after) (hidentities : inp.identityIssues = [])
    (hquiet : inp.hydrated.2 = []) :
    (∃ asset, asset.assetRecordName = name ∧ (asset, index) ∈ inp.hydrated.1.downloadableAssets) ↔
      name ∈ after.assets ∧ inp.assetToMaster name = none ∧ inp.Adds name index := by
  rw [← mem_passIndicesByAsset hidentities]
  constructor
  · rintro ⟨asset, rfl, hmem⟩
    rw [hydrated_eq] at hquiet hmem
    have hsound := accum_invariant_quiet (I := Hydration.Sound inp after) hquiet (by
      simp [Hydration.Sound]) (fun _ _ _ hstep ih => hydratePass_sound h hstep ih)
    exact hsound asset index hmem
  · rintro ⟨hshown, hindex⟩
    have hnew := ((mem_passIndicesByAsset hidentities).mp hindex).1
    have hmissing : ∃ m ∈ inp.missing, m.assetRecordName = name := by
      simp only [passIndicesByAsset, List.mem_dedup, List.mem_flatMap, List.mem_filter,
        decide_eq_true_eq] at hindex
      obtain ⟨m, hm, -⟩ := hindex
      exact ⟨m, hm⟩
    obtain ⟨m, hm, rfl⟩ := hmissing
    have hplanned := (hydrated_gathered hidentities hquiet).planned _
      (hydrated_known h hquiet hm hshown)
    exact hplanned.resolve_left (by simp [hnew]) index hindex

/-! ## the routes of a run -/

/-- The asset was in no selected album that the changes delete, or they also say that it left. -/
def Input.Kept (inp : Input) (before : ZoneState) (name : String) : Prop :=
  ∀ containerId, inp.routing.isSelected containerId = true → inp.Deletes containerId →
    name ∈ before.relations containerId → inp.Writes containerId name

/-- **The routes of a quiet run** are those of the full plan for the assets that the changes bring,
and for the others those that a relation adds. -/
theorem routes_planned (h : Leads inp before after) (hdb : inp.config.hasStateDb = true)
    (hresolved : ResolvedPasses inp.passes) (hquiet : inp.issues = []) (name : String)
    (hkept : inp.Brings name → inp.Kept before name) (index : Nat) :
    inp.RoutesTo name index ↔ (name, index) ∈ perPassAssets inp.passes after.listing ∧
      (inp.Brings name ∨ inp.Adds name index) := by
  obtain ⟨-, -, hpaired, hidentities, -, hhydrated, -, hrelations, hrouting⟩ :=
    issues_eq_nil.mp hquiet
  have hparts : inp.RoutesTo name index ↔
      (name ∈ after.assets ∧ inp.assetToMaster name = none ∧ inp.Adds name index) ∨
        inp.Creates name ∧ inp.Files (fun containerId =>
          inp.membershipDb.isLive inp.config.library containerId name = true) index := by
    rw [← mem_hydrated h hidentities hhydrated, ← mem_routed hrouting, ← exists_or]
    simp only [Input.RoutesTo, Input.downloadableAssets, List.mem_append, and_or_left]
  have hcreates : inp.Creates name ↔ inp.Brings name ∧ name ∈ after.assets :=
    creates_iff h hpaired hidentities
  have hknown : (inp.assetToMaster name).isSome → inp.Brings name := by
    intro hsome
    obtain ⟨event, hevent, hname⟩ := (assetToMaster_isSome hidentities).mp hsome
    obtain ⟨raw, hraw, hthis⟩ := (identified_completed hidentities).exists_left hevent
    exact ⟨raw, hraw, hthis.brings name hname⟩
  have hcreated : inp.Creates name → (inp.assetToMaster name).isSome :=
    fun ⟨event, hevent, _, hname⟩ => (assetToMaster_isSome hidentities).mpr ⟨event, hevent, hname⟩
  have hadds : inp.Adds name index → inp.Files (fun containerId =>
      name ∈ after.relations containerId) index := by
    rintro ⟨event, hevent, relation, hrelation, rfl, hadded, hindex⟩
    have hanswer := h.relations event hevent relation hrelation
    rw [hadded] at hanswer
    exact .inl ⟨relation.containerId, by simpa using hanswer.symm, hindex⟩
  have hfiles (hbrings : inp.Brings name) := @Input.Files.congr inp index _ _
    (fun containerId hselected => membershipDb_after h hdb hidentities hrelations hselected
      (hkept hbrings containerId hselected))
  rw [hparts, mem_plan hresolved, hcreates]
  by_cases hbrings : inp.Brings name
  · have hnone : name ∈ after.assets → inp.assetToMaster name ≠ none := fun hshown hnone => by
      simpa [hnone] using hcreated (hcreates.mpr ⟨hbrings, hshown⟩)
    grind
  · have hnone : inp.assetToMaster name = none := by
      simpa using fun hsome => hbrings (hknown hsome)
    grind

/-! ## one asset in one album -/

/-- The zone shows the asset `a`, which is in the album `c`. -/
def joined : ZoneState := ⟨["a"], fun containerId => if containerId = "c" then ["a"] else []⟩

/-- The answers of a zone that shows `assets`. -/
def zoneReplies (assets : List String) : Replies :=
  { plainReplies with
    resolvePairs := fun _ => ([], false)
    hydrateMatchingAssets := fun _ names =>
      some ((names.filter (· ∈ assets)).map (fun name =>
        ⟨⟨"m", name, none, none, .null, .null⟩, true, some "m"⟩)) }

/-- A run over `feed`, from the stored album `c` with the asset `a`. -/
def zoneInput (passes : List AlbumPass) (feed : List Delivered) (assets : List String) : Input :=
  { albumInput passes (fun _ => none) feed with
    store := ⟨(writeMembership ⟨"PrimarySync", true, .download, none⟩ 1 ⟨"c", "a", false⟩ (some "m")
      (upsertAlbumContainer "PrimarySync" "c" "Vacation" "album" 1 .empty)).2, fun _ => none⟩
    replies := zoneReplies assets }

section ZoneInput

variable {passes : List AlbumPass} {feed : List Delivered} {assets : List String}
  {relations : String → List String}

theorem mem_zoneInput (hpasses : passes ≠ []) {event : Delivered} :
    event ∈ (zoneInput passes feed assets).changeEvents ↔ event ∈ feed := by
  simp [Input.changeEvents, zoneInput, albumInput, hpasses]

theorem zoneInput_leads (hpasses : passes ≠ [])
    (hplain : ∀ event ∈ feed, ∀ name, event.brings name → event.isPlainCreated = true)
    (hshown : ∀ event ∈ feed, ∀ name, event.hasAsset name → name ∈ assets)
    (hanswer : ∀ event ∈ feed, ∀ relation, event.relation = some relation →
      (!relation.isDeleted) =
        decide (relation.assetRecordName ∈ relations relation.containerId))
    (hunchanged : ∀ containerId name,
      (∀ event ∈ feed, relationWrites containerId name event = none) →
      (∀ event ∈ feed, ∀ album, event.album = some album → album.isDeleted = true →
        album.containerId ≠ containerId) →
      (name ∈ joined.relations containerId ↔ name ∈ relations containerId))
    (hemptied : ∀ event ∈ feed, ∀ album, event.album = some album → album.isDeleted = true →
      relations album.containerId = []) :
    Leads (zoneInput passes feed assets) joined ⟨assets, relations⟩ where
  stored containerId _ name := by
    have hlive := isLive_writeMembership ⟨"PrimarySync", true, .download, none⟩ 1 ⟨"c", "a", false⟩
      (some "m") (upsertAlbumContainer "PrimarySync" "c" "Vacation" "album" 1 .empty) containerId
      name
    refine hlive.trans ?_
    by_cases hkey : "c" = containerId ∧ "a" = name
    · simp [joined, ← hkey.1, ← hkey.2]
    · have hother : name ∉ joined.relations containerId := by
        simp only [joined]
        split <;> grind
      simp only [hkey, if_false, hother, decide_false]
      rfl
  created event hevent name hbrings _ :=
    hplain event ((mem_zoneInput hpasses).mp hevent) name hbrings
  shown event hevent name _ hname := hshown event ((mem_zoneInput hpasses).mp hevent) name hname
  relations event hevent := hanswer event ((mem_zoneInput hpasses).mp hevent)
  unchanged containerId name _ hsilent hkept := by
    simp only [Input.Writes, Input.Deletes, mem_zoneInput hpasses] at hsilent hkept
    refine hunchanged containerId name (fun event hevent => ?_)
      (fun event hevent album halbum hdeleted hsame =>
        hkept ⟨event, hevent, album, halbum, hsame, hdeleted⟩)
    exact Option.not_isSome_iff_eq_none.mp (fun hsome => hsilent ⟨event, hevent, hsome⟩)
  emptied containerId := by
    simp only [Input.Deletes, mem_zoneInput hpasses]
    rintro ⟨event, hevent, album, halbum, rfl, hdeleted⟩
    exact hemptied event hevent album halbum hdeleted
  identities resolved hresolved := by cases hresolved
  answered pairs hcomplete := by cases hcomplete
  gone pairs resolved hresolved := by cases hresolved
  present pairs resolved hresolved := by cases hresolved
  scanned hydrator names found hfound name := by
    obtain rfl := Option.some.inj hfound
    simp [and_comm]

end ZoneInput

/-- The pairs of a run by name. -/
def Input.routes (inp : Input) : List (String × Nat) :=
  inp.downloadableAssets.map (fun pair => (pair.1.assetRecordName, pair.2))

theorem routesTo_iff : inp.RoutesTo name index ↔ (name, index) ∈ inp.routes := by
  simp [Input.RoutesTo, Input.routes, and_comm]

theorem not_routesAsPlanned (hchanged : inp.Changed name)
    (hdiffers : decide ((name, index) ∈ inp.routes) ≠
      decide ((name, index) ∈ perPassAssets inp.passes after.listing)) :
    ¬RoutesAsPlanned inp after := by
  intro h
  have hsame := h name hchanged index
  rw [routesTo_iff] at hsame
  simp [hsame] at hdiffers

def otherPass : AlbumPass := ⟨.album, "Family", some "d", []⟩

/-- The asset `a` joins the album `d`. -/
def otherAdded : Delivered := { relationAdded with relation := some ⟨"d", "a", false⟩ }

/-- The content of `a` has changed. -/
def photoChanged (membershipsRead : Bool) : Delivered :=
  { ChangeEvent.new "a" (some "CPLAsset") .created with
    asset := some ⟨"m", "a", none, none, .null, .null⟩
    replies := { wellReplied with membershipsRead := membershipsRead } }

def albumDeleted : Delivered :=
  { ChangeEvent.new "c" (some "CPLAlbum") .created with
    album := some ⟨"c", "Vacation", true⟩, replies := wellReplied }

/-- The asset leaves the album. -/
def leavingInput : Input := zoneInput [albumPass, unfiledPass] [relationRemoved] ["a"]

/-- The asset joins another album and stays in the first. -/
def joiningInput : Input := zoneInput [albumPass, otherPass] [otherAdded] ["a"]

/-- The album is deleted, and the content of the asset has changed. -/
def deletedInput : Input :=
  zoneInput [albumPass, unfiledPass] [albumDeleted, photoChanged true] ["a"]

/-- The stored memberships of the asset cannot be read. -/
def unreadInput : Input := zoneInput [albumPass] [photoChanged false] ["a"]

def left : ZoneState := ⟨["a"], fun _ => []⟩

def joinedBoth : ZoneState :=
  ⟨["a"], fun containerId => if containerId = "c" ∨ containerId = "d" then ["a"] else []⟩

theorem leavingInput_leads : Leads leavingInput joined left := by
  refine zoneInput_leads (by simp) ?_ ?_ ?_ ?_ ?_
  · simp [Delivered.brings, Delivered.hasAsset, Delivered.isUnpairedCreated, relationRemoved,
      relationAdded, ChangeEvent.new]
  · simp [Delivered.hasAsset, relationRemoved, relationAdded, ChangeEvent.new]
  · simp [relationRemoved]
  · simp [relationWrites, relationRemoved, relationAdded, joined, ChangeEvent.new]
    grind
  · simp [relationRemoved, relationAdded, ChangeEvent.new]

theorem joiningInput_leads : Leads joiningInput joined joinedBoth := by
  refine zoneInput_leads (by simp) ?_ ?_ ?_ ?_ ?_
  · simp [Delivered.brings, Delivered.hasAsset, Delivered.isUnpairedCreated, otherAdded,
      relationAdded, ChangeEvent.new]
  · simp [Delivered.hasAsset, otherAdded, relationAdded, ChangeEvent.new]
  · simp [otherAdded]
  · simp [relationWrites, otherAdded, relationAdded, joined, ChangeEvent.new]
    grind
  · simp [otherAdded, relationAdded, ChangeEvent.new]

theorem photoChanged_isPlainCreated (read : Bool) : (photoChanged read).isPlainCreated = true := rfl

theorem deletedInput_leads : Leads deletedInput joined left := by
  refine zoneInput_leads (by simp) ?_ ?_ ?_ ?_ ?_
  · simp [Delivered.brings, Delivered.hasAsset, Delivered.isUnpairedCreated, albumDeleted,
      photoChanged_isPlainCreated, ChangeEvent.new]
  · simp [Delivered.hasAsset, albumDeleted, photoChanged, ChangeEvent.new]
  · simp [albumDeleted, photoChanged, ChangeEvent.new]
  · simp [relationWrites, albumDeleted, photoChanged, joined, ChangeEvent.new]
    grind
  · simp [albumDeleted, photoChanged, ChangeEvent.new]

theorem unreadInput_leads : Leads unreadInput joined joined := by
  refine zoneInput_leads (by simp) ?_ ?_ ?_ ?_ ?_
  · simp [photoChanged_isPlainCreated]
  · simp [Delivered.hasAsset, photoChanged, ChangeEvent.new]
  · simp [photoChanged, ChangeEvent.new]
  · exact fun _ _ _ _ => Iff.rfl
  · simp [photoChanged, ChangeEvent.new]

theorem leavingInput_changed : leavingInput.Changed "a" :=
  .inr ⟨"c", relationRemoved, List.mem_cons_self, rfl⟩

theorem joiningInput_changed : joiningInput.Changed "a" :=
  .inr ⟨"d", otherAdded, List.mem_cons_self, rfl⟩

theorem photo_changed {passes : List AlbumPass} {feed : List Delivered} (read : Bool)
    (hpasses : passes ≠ []) (hmem : photoChanged read ∈ feed) :
    (zoneInput passes feed ["a"]).Changed "a" :=
  .inl ⟨photoChanged read, (mem_zoneInput hpasses).mpr hmem, .inl ⟨_, rfl, rfl⟩⟩

/-- **Not the plan**: an asset that leaves its album is not routed to the unfiled pass, one that
joins an album is not routed to the albums it stays in, one of a deleted album is routed to that
album, and one whose memberships cannot be read is not routed at all. -/
theorem routes_not_planned :
    (Leads leavingInput joined left ∧ ¬RoutesAsPlanned leavingInput left) ∧
    (Leads joiningInput joined joinedBoth ∧ ¬RoutesAsPlanned joiningInput joinedBoth) ∧
    (Leads deletedInput joined left ∧ ¬RoutesAsPlanned deletedInput left) ∧
    (Leads unreadInput joined joined ∧ ¬RoutesAsPlanned unreadInput joined) := by
  refine ⟨⟨leavingInput_leads, ?_⟩, ⟨joiningInput_leads, ?_⟩, ⟨deletedInput_leads, ?_⟩,
    ⟨unreadInput_leads, ?_⟩⟩
  · exact @not_routesAsPlanned _ _ "a" 1 leavingInput_changed (by decide +kernel)
  · exact @not_routesAsPlanned _ _ "a" 0 joiningInput_changed (by decide +kernel)
  · exact @not_routesAsPlanned _ _ "a" 0 (photo_changed true (by simp) (by simp))
      (by decide +kernel)
  · exact @not_routesAsPlanned _ _ "a" 0 (photo_changed false (by simp) (by simp))
      (by decide +kernel)

theorem joiningInput_resolved : ResolvedPasses joiningInput.passes where
  album := by decide
  smartFolder := by decide
  excludeIds := by decide
  unfiled i j pass pass' hi hj hkind := by
    have hnone : ∀ pass ∈ joiningInput.passes, pass.kind ≠ .unfiled := by decide
    exact absurd hkind (hnone pass (List.mem_of_getElem? hi))

theorem joiningInput_not_brings : ¬joiningInput.Brings "a" := by
  rintro ⟨event, hevent, hbrings⟩
  obtain rfl := List.mem_singleton.mp hevent
  simp [Delivered.brings, Delivered.hasAsset, Delivered.isUnpairedCreated, otherAdded,
    relationAdded, ChangeEvent.new] at hbrings

theorem joiningInput_not_adds : ¬joiningInput.Adds "a" 0 := by
  rintro ⟨event, hevent, relation, hrelation, -, -, hindex⟩
  obtain rfl := List.mem_singleton.mp hevent
  obtain rfl := Option.some.inj hrelation
  revert hindex
  decide

/-- The asset goes to the pass of the album that it joins, and to no other. -/
theorem routes_planned_joining : joiningInput.RoutesTo "a" 1 ∧ ¬joiningInput.RoutesTo "a" 0 := by
  have hroutes := routes_planned joiningInput_leads rfl joiningInput_resolved (by decide +kernel)
    "a" (fun hbrings => absurd hbrings joiningInput_not_brings)
  refine ⟨(hroutes 1).mpr ⟨by decide +kernel, .inr ?_⟩, fun hroute => ?_⟩
  · exact ⟨otherAdded, List.mem_cons_self, _, rfl, rfl, rfl, by decide⟩
  · exact ((hroutes 0).mp hroute).2.elim joiningInput_not_brings joiningInput_not_adds

end Kei.Incremental
