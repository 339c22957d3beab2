import Kei.FullEnumeration

/-!
# Kei.FullEnumeration.Listing

The assets that the passes of a full enumeration get, for what the provider
lists.

The deferred unfiled pass leaves out what the album passes of the same run have
listed.
-/

namespace Kei.FullEnumeration

/-- What the provider lists for a zone, by asset record names. -/
structure ZoneListing where
  library : List String
  /-- By container. -/
  album : String → List String
  /-- By name. -/
  smartFolder : String → List String

/-- The stream of a pass. -/
def passStream (zone : ZoneListing) (pass : AlbumPass) : List String :=
  match pass.kind with
  | .album => (pass.containerId.map zone.album).getD []
  | .smartFolder => zone.smartFolder pass.name
  | .unfiled => zone.library

/-- What the album passes record while they run. -/
def deferredIds (passes : List AlbumPass) (zone : ZoneListing) : List String :=
  ((concurrentPasses passes).filter (fun entry => entry.1.kind = .album)).flatMap
    (fun entry => passStream zone entry.1)

/-- The assets that a full enumeration plans, with the indexes of their passes. -/
def perPassAssets (passes : List AlbumPass) (zone : ZoneListing) : List (String × Nat) :=
  (concurrentPasses passes).flatMap
      (fun entry => (passStream zone entry.1).map (fun asset => (asset, entry.2))) ++
    match deferredUnfiledIndex passes with
    | none => []
    | some index =>
        match passes[index]? with
        | none => []
        | some pass =>
            ((passStream zone pass).filter (fun asset => asset ∉ deferredIds passes zone)).map
              (fun asset => (asset, index))

/-- Passes as they are resolved for a library, without its smart folders. -/
structure ResolvedPasses (passes : List AlbumPass) : Prop where
  album : ∀ pass ∈ passes, pass.kind = .album → pass.containerId.isSome = true
  smartFolder : ∀ pass ∈ passes, pass.kind ≠ .smartFolder
  excludeIds : ∀ pass ∈ passes, pass.excludeIds = []
  /-- There is one unfiled pass at most. -/
  unfiled : ∀ (i j : Nat) (pass pass' : AlbumPass),
    passes[i]? = some pass → passes[j]? = some pass' →
    pass.kind = .unfiled → pass'.kind = .unfiled → i = j

/-- The asset is in a selected album. -/
def InSelectedAlbum (passes : List AlbumPass) (zone : ZoneListing) (asset : String) : Prop :=
  ∃ pass ∈ passes, pass.kind = .album ∧ ∃ containerId, pass.containerId = some containerId ∧
    asset ∈ zone.album containerId

variable {zone : ZoneListing} {asset : String}

theorem mem_passStream_album {pass : AlbumPass} (h : pass.kind = .album) :
    asset ∈ passStream zone pass ↔
      ∃ containerId, pass.containerId = some containerId ∧ asset ∈ zone.album containerId := by
  cases hcontainer : pass.containerId <;> simp [passStream, h, hcontainer]

theorem mem_deferredIds {passes : List AlbumPass} :
    asset ∈ deferredIds passes zone ↔ InSelectedAlbum passes zone asset := by
  simp only [deferredIds, List.mem_flatMap, List.mem_filter, decide_eq_true_eq, InSelectedAlbum]
  constructor
  · rintro ⟨⟨pass, index⟩, ⟨hmem, hkind⟩, hasset⟩
    have hpass := (mem_concurrentPasses.mp hmem).1
    exact ⟨pass, List.mem_of_getElem? hpass, hkind, (mem_passStream_album hkind).mp hasset⟩
  · rintro ⟨pass, hpass, hkind, hasset⟩
    obtain ⟨index, hindex⟩ := List.getElem?_of_mem hpass
    refine ⟨(pass, index), ⟨mem_concurrentPasses.mpr ⟨hindex, fun hdeferred => ?_⟩, hkind⟩,
      (mem_passStream_album hkind).mpr hasset⟩
    obtain ⟨pass', hpass', hkind'⟩ := deferredUnfiledIndex_eq_some hdeferred
    rw [hindex] at hpass'
    cases hpass'
    rw [hkind] at hkind'
    cases hkind'

variable {passes : List AlbumPass}

theorem deferred_of_unfiled (h : ResolvedPasses passes) {pass : AlbumPass} {index : Nat}
    (hpass : passes[index]? = some pass) (hkind : pass.kind = .unfiled)
    (halbum : ∃ pass' ∈ passes, pass'.kind = .album) :
    deferredUnfiledIndex passes = some index := by
  have hany : passes.any (fun pass => pass.kind = .album) = true := by
    simpa [List.any_eq_true] using halbum
  rw [deferredUnfiledIndex, if_pos hany]
  have hmem := List.mem_of_getElem? hpass
  cases hfind : passes.findIdx? (fun pass => pass.kind = .unfiled && pass.excludeIds.isEmpty) with
  | none =>
      have hnone := List.findIdx?_eq_none_iff.mp hfind pass hmem
      simp [hkind, h.excludeIds pass hmem] at hnone
  | some i =>
      obtain ⟨hlt, hfound, -⟩ := List.findIdx?_eq_some_iff_getElem.mp hfind
      simp only [Bool.and_eq_true, decide_eq_true_eq] at hfound
      rw [h.unfiled i index _ pass (List.getElem?_eq_getElem hlt) hpass hfound.1 hkind]

/-- **The plan of a full enumeration**: the passes of the albums that have the asset, and the
unfiled pass when there is none. -/
theorem mem_perPassAssets (h : ResolvedPasses passes) {index : Nat} :
    (asset, index) ∈ perPassAssets passes zone ↔
      ∃ pass, passes[index]? = some pass ∧
        (pass.kind = .album ∧ asset ∈ passStream zone pass ∨
          pass.kind = .unfiled ∧ asset ∈ zone.library ∧ ¬InSelectedAlbum passes zone asset) := by
  unfold perPassAssets
  rw [List.mem_append, List.mem_flatMap]
  constructor
  · rintro (⟨⟨pass, i⟩, hmem, hasset⟩ | hdeferred)
    · obtain ⟨hpass, hother⟩ := mem_concurrentPasses.mp hmem
      simp only [List.mem_map, Prod.mk.injEq] at hasset
      obtain ⟨asset', hasset, rfl, rfl⟩ := hasset
      refine ⟨pass, hpass, ?_⟩
      cases hkind : pass.kind with
      | album => exact .inl ⟨rfl, hasset⟩
      | smartFolder => exact absurd hkind (h.smartFolder pass (List.mem_of_getElem? hpass))
      | unfiled =>
          refine .inr ⟨rfl, by simpa [passStream, hkind] using hasset, ?_⟩
          rintro ⟨pass', hpass', hkind', -⟩
          exact hother (deferred_of_unfiled h hpass hkind ⟨pass', hpass', hkind'⟩)
    · split at hdeferred
      · cases hdeferred
      · next i hi =>
          obtain ⟨pass, hpass, hkind⟩ := deferredUnfiledIndex_eq_some hi
          simp only [hpass, List.mem_map, List.mem_filter, decide_eq_true_eq, Prod.mk.injEq,
            mem_deferredIds] at hdeferred
          obtain ⟨asset', ⟨hasset, hnone⟩, rfl, rfl⟩ := hdeferred
          exact ⟨pass, hpass, .inr ⟨hkind, by simpa [passStream, hkind] using hasset, hnone⟩⟩
  · rintro ⟨pass, hpass, ⟨hkind, hasset⟩ | ⟨hkind, hasset, hnone⟩⟩
    · refine .inl ⟨(pass, index), mem_concurrentPasses.mpr ⟨hpass, fun hdeferred => ?_⟩,
        List.mem_map.mpr ⟨asset, hasset, rfl⟩⟩
      obtain ⟨pass', hpass', hkind'⟩ := deferredUnfiledIndex_eq_some hdeferred
      rw [hpass] at hpass'
      cases hpass'
      rw [hkind] at hkind'
      cases hkind'
    · have hstream : asset ∈ passStream zone pass := by simpa [passStream, hkind] using hasset
      by_cases hdeferred : deferredUnfiledIndex passes = some index
      · refine .inr ?_
        simp only [hdeferred, hpass, List.mem_map, List.mem_filter, decide_eq_true_eq,
          mem_deferredIds]
        exact ⟨asset, ⟨hstream, hnone⟩, rfl⟩
      · exact .inl ⟨(pass, index), mem_concurrentPasses.mpr ⟨hpass, hdeferred⟩,
          List.mem_map.mpr ⟨asset, hstream, rfl⟩⟩

end Kei.FullEnumeration
