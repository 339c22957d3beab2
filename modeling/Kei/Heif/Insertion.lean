import Kei.Heif.Rewrite
import Kei.Heif.Encoded
import Kei.Lib.Traverse

/-!
# Kei.Heif.Insertion

What an accepted insertion has read and made, and the id of its new item.

The id is one more than the largest in `iinf`.  The items of `iloc` and `iref`
are looked up in `iinf` before, and the primary item is not, so that the new
item is the primary one in a file whose `pitm` names an item that is not there.
-/

namespace Kei.Heif

open Bytes Fallible

/-! ## the largest id -/

def largestId (itemIds : List Nat) : Nat := itemIds.foldr max 0

theorem le_largestId {itemIds : List Nat} {itemId : Nat} (h : itemId ∈ itemIds) :
    itemId ≤ largestId itemIds := by
  induction itemIds with
  | nil => cases h
  | cons first rest ih =>
      rcases List.mem_cons.mp h with rfl | h
      · exact Nat.le_max_left _ _
      · exact Nat.le_trans (ih h) (Nat.le_max_right _ _)

theorem largestId_append_singleton (itemIds : List Nat) (itemId : Nat) :
    largestId (itemIds ++ [itemId]) = max (largestId itemIds) itemId := by
  induction itemIds with
  | nil => simp [largestId]
  | cons first rest ih =>
      show max first (largestId (rest ++ [itemId])) = _
      rw [ih, ← Nat.max_assoc]
      rfl

variable {bytes : List UInt8}

theorem maxItemId_of_parseIinf {iinf : RawBox} {layout : IinfLayout}
    (h : parseIinf bytes iinf = .ok layout) : layout.maxItemId = largestId layout.itemIds := by
  simp only [parseIinf, parseIinfBody, bind_eq_ok] at h
  obtain ⟨-, -, ⟨countPos, countSize, count⟩, -, entries, -, -, -, hfold⟩ := h
  refine foldlM_preserves (P := fun layout => layout.maxItemId = largestId layout.itemIds) ?_
    _ _ _ hfold rfl
  intro s entry s' hstep hs
  simp only [IinfLayout.add, bind_eq_ok, pure_eq_ok] at hstep
  obtain ⟨-, -, infe, -, -, -, rfl⟩ := hstep
  show max s.maxItemId infe.itemId = largestId (s.itemIds ++ [infe.itemId])
  rw [largestId_append_singleton, hs]

theorem foldl_max_of_le {items : List IlocItem} {bound : Nat}
    (h : ∀ item ∈ items, item.itemId ≤ bound) :
    items.foldl (fun maxItemId item => max maxItemId item.itemId) bound = bound := by
  induction items with
  | nil => rfl
  | cons item items ih =>
      rw [List.foldl_cons, Nat.max_eq_left (h item (by simp))]
      exact ih fun item' hitem => h item' (List.mem_cons_of_mem _ hitem)

/-! ## accepted insertions -/

/-- What `locate_xmp` has read. -/
structure Located (bytes : List UInt8) (layout : MetaLayout) (located : LocatedXmp)
    (iloc : IlocLayout) : Prop where
  parseIinf_eq : parseIinf bytes layout.iinf = .ok located.iinf
  parseIloc_eq : parseIloc bytes layout.iloc = .ok iloc
  known : ∀ item ∈ iloc.items, item.itemId ∈ located.iinf.itemIds
  selected : selectXmpItemId bytes layout.iref layout.primaryItemId located.iinf.xmpItemIds =
    .ok located.xmpItemId
  existing : located.existing = located.xmpItemId.bind (locateItem bytes iloc.items)
  maxItemId : located.maxItemId = largestId located.iinf.itemIds

variable {located : LocatedXmp} {layout : MetaLayout}

theorem located_of_locateXmp
    (h : locateXmp bytes layout.iinf layout.iloc layout.iref layout.primaryItemId = .ok located) :
    ∃ iloc, Located bytes layout located iloc := by
  simp only [locateXmp, bind_eq_ok, ensure_eq_ok, pure_eq_ok] at h
  obtain ⟨iinf, hiinf, iloc, hiloc, -, hknown, xmpItemId, hselected, rfl⟩ := h
  refine ⟨iloc, hiinf, hiloc, hknown, hselected, rfl, ?_⟩
  have hmax := maxItemId_of_parseIinf hiinf
  show iloc.items.foldl _ iinf.maxItemId = largestId iinf.itemIds
  rw [hmax]
  exact foldl_max_of_le fun item hitem => le_largestId (hknown item hitem)

variable {iloc : IlocLayout}

theorem Located.fresh (h : Located bytes layout located iloc) :
    located.newItemId ∉ located.iinf.itemIds := by
  intro hmem
  have hle := le_largestId hmem
  rw [LocatedXmp.newItemId, h.maxItemId] at hle
  omega

/-- What an insertion has made for its output. -/
structure InsertionParts (input xmp : List UInt8) (layout : MetaLayout) (iloc : IlocLayout)
    (located : LocatedXmp) (output : List UInt8) where
  describedItemIds : List Nat
  newIinf : List UInt8
  newIref : List UInt8
  placeholderIloc : List UInt8
  newIloc : List UInt8
  delta : Nat
  newLen : Nat
  children : List RawBox
  metaBytes : List UInt8
  appended : List UInt8
  topLevel : ensureInsertionLayout input = .ok ()
  described : insertionDescribedItemIds input layout.iref layout.primaryItemId located.iinf =
    .ok describedItemIds
  itemId_lt : located.newItemId < 2 ^ 32
  iinf_eq : appendIinfEntry input layout.iinf located.iinf.countPos located.iinf.countSize
    located.newItemId = .ok newIinf
  iref_eq : describeInIref input layout.iref located.newItemId describedItemIds
    located.iinf.itemIds = .ok newIref
  placeholder_eq : appendIlocEntry input layout.iloc iloc located.newItemId
    (input.length + 8) xmp.length 0 layout.meta.stop = .ok placeholderIloc
  delta_eq : newMetaLen layout newIinf newIref placeholderIloc = some (layout.meta.size + delta)
  offset_lt : input.length + delta + 8 < 2 ^ 64
  iloc_eq : appendIlocEntry input layout.iloc iloc located.newItemId
    (input.length + delta + 8) xmp.length delta layout.meta.stop = .ok newIloc
  newLen_eq : newMetaLen layout newIinf newIref newIloc = some newLen
  children_eq : scanRawBoxes input (layout.meta.bodyStart + layout.prefixSize) layout.meta.stop =
    .ok children
  meta_eq : patchBoxSize
    (slice input layout.meta.start (layout.meta.bodyStart + layout.prefixSize) ++
      children.flatMap (newMetaChild input layout newIinf newIref newIloc)) = .ok metaBytes
  length_meta : metaBytes.length = newLen
  appended_eq : boxWithBody (ascii "mdat") xmp = .ok appended
  output_eq : output =
    input.take layout.meta.start ++ metaBytes ++ input.drop layout.meta.stop ++ appended

theorem checkedSub_eq_some {a b c : Nat} : checkedSub a b = some c ↔ b ≤ a ∧ a - b = c := by
  unfold checkedSub
  split <;> simp [*]

variable {input xmp output : List UInt8}

theorem parts_of_insertXmp (h : insertXmp input xmp layout iloc located = .ok output) :
    Nonempty (InsertionParts input xmp layout iloc located output) := by
  simp only [insertXmp, bind_eq_ok, require_eq_ok, ensure_eq_ok, pure_eq_ok,
    Option.bind_eq_bind, Option.bind_eq_some_iff, checkedAdd_eq_some, checkedSub_eq_some] at h
  obtain ⟨⟨⟩, htop, describedItemIds, hdescribed, -, hid, -, -, newIinf, hiinf, newIref, hiref, _,
    ⟨-, rfl⟩, placeholderIloc, hplaceholder, placeholderLen, hplaceholderLen, delta, ⟨hle, rfl⟩, _,
    ⟨_, ⟨-, rfl⟩, hfits, rfl⟩, newIloc, hiloc, newLen, hnewLen, children, hchildren, metaBytes,
    hmeta, -, hlen, appended, happended, rfl⟩ := h
  exact ⟨{
    describedItemIds, newIinf, newIref, placeholderIloc, newIloc, newLen, children, metaBytes,
    appended
    delta := placeholderLen - layout.meta.size
    topLevel := htop
    described := hdescribed
    itemId_lt := hid
    iinf_eq := hiinf
    iref_eq := hiref
    placeholder_eq := hplaceholder
    delta_eq := by rw [hplaceholderLen, Nat.add_sub_cancel' hle]
    offset_lt := hfits
    iloc_eq := hiloc
    newLen_eq := hnewLen
    children_eq := hchildren
    meta_eq := hmeta
    length_meta := hlen
    appended_eq := happended
    output_eq := rfl }⟩

theorem insertXmp_of_parts (parts : InsertionParts input xmp layout iloc located output)
    (hmap : ¬ (located.iinf.version = 0 ∧ 2 ^ 16 ≤ located.newItemId ∧ iloc.version ≠ 2)) :
    insertXmp input xmp layout iloc located = .ok output := by
  have hoffset := parts.offset_lt
  have hplaceholder : checkedAdd input.length 8 = some (input.length + 8) :=
    checkedAdd_eq_some.mpr ⟨by omega, rfl⟩
  have hdelta : checkedSub (layout.meta.size + parts.delta) layout.meta.size = some parts.delta :=
    checkedSub_eq_some.mpr ⟨Nat.le_add_right _ _, Nat.add_sub_cancel_left _ _⟩
  have hlen : checkedAdd input.length parts.delta = some (input.length + parts.delta) :=
    checkedAdd_eq_some.mpr ⟨by omega, rfl⟩
  have hdata : checkedAdd (input.length + parts.delta) 8 = some (input.length + parts.delta + 8) :=
    checkedAdd_eq_some.mpr ⟨hoffset, rfl⟩
  simp only [insertXmp, parts.topLevel, parts.described, ensure_of parts.itemId_lt, ensure_of hmap,
    parts.iinf_eq, parts.iref_eq, hplaceholder, parts.placeholder_eq, parts.delta_eq, hdelta, hlen,
    hdata, parts.iloc_eq, parts.newLen_eq, parts.children_eq, parts.meta_eq,
    ensure_of parts.length_meta, parts.appended_eq, require_some, ok_bind, Option.bind_eq_bind,
    Option.bind_some]
  exact congrArg Except.ok parts.output_eq.symm

/-- An accepted rewrite of a file without a packet is an insertion. -/
theorem parts_of_rewriteXmp (h : rewriteXmp input xmp = .ok output)
    (hlayout : findMetaLayout input = .ok layout)
    (hlocated : locateXmp input layout.iinf layout.iloc layout.iref layout.primaryItemId =
      .ok located) (habsent : located.existing = none) :
    ∃ iloc, Located input layout located iloc ∧
      Nonempty (InsertionParts input xmp layout iloc located output) := by
  obtain ⟨iloc, hl⟩ := located_of_locateXmp hlocated
  refine ⟨iloc, hl, ?_⟩
  simp only [rewriteXmp, hlayout, hl.parseIloc_eq, hlocated, habsent, ok_bind, bind_eq_ok] at h
  obtain ⟨-, -, -, -, -, -, -, -, h⟩ := h
  exact parts_of_insertXmp h

/-! ## the id of the new item -/

/-- The references of a checked `iref` box, of every kind, are between known items. -/
theorem references_known {bytes newIref : List UInt8} {iref : RawBox} {xmpItemId : Nat}
    {describedItemIds knownItemIds : List Nat}
    (h : appendCdscReference bytes iref xmpItemId describedItemIds knownItemIds = .ok newIref)
    (referenceType : List UInt8) :
    ∃ pairs, itemReferencePairs bytes iref referenceType = .ok pairs ∧
      ∀ pair ∈ pairs, pair.1 ∈ knownItemIds ∧ ∀ target ∈ pair.2, target ∈ knownItemIds := by
  simp only [appendCdscReference, bind_eq_ok, ensure_eq_ok] at h
  obtain ⟨-, hlen, children, hchildren, ⟨⟩, hchecked, -⟩ := h
  have hchecked' := forM_eq_ok.mp hchecked
  simp only [bind_eq_ok, ensure_eq_ok] at hchecked'
  obtain ⟨pairs, hpairs⟩ := exists_mapM_eq_ok
    (l := children.filter (fun child => child.kind = referenceType))
    (f := fun child => parseReference ((bodyOf bytes iref).headD 0)
      (bodyOf (bodyOf bytes iref) child))
    fun child hchild => by
      obtain ⟨pair, hpair, -⟩ := hchecked' child (List.mem_of_mem_filter hchild)
      exact ⟨pair, hpair⟩
  refine ⟨pairs, ?_, fun pair hpair => ?_⟩
  · simp only [itemReferencePairs, referencePairsBody, ensure_of hlen, hchildren, ok_bind]
    exact hpairs
  · obtain ⟨child, hchild, hparse⟩ := exists_of_mem_mapM hpairs hpair
    obtain ⟨pair', hpair', -, hsource, htargets⟩ :=
      hchecked' child (List.mem_of_mem_filter hchild)
    rw [hparse] at hpair'
    cases hpair'
    exact ⟨hsource, htargets⟩

/-- No table of the `meta` box mentions the item. -/
structure Unmentioned (bytes : List UInt8) (layout : MetaLayout) (itemId : Nat) : Prop where
  iinf : ∃ iinf, parseIinf bytes layout.iinf = .ok iinf ∧ itemId ∉ iinf.itemIds
  iloc : ∃ iloc, parseIloc bytes layout.iloc = .ok iloc ∧
    ∀ item ∈ iloc.items, item.itemId ≠ itemId
  iref : ∀ iref ∈ layout.iref, ∀ referenceType,
    ∃ pairs, itemReferencePairs bytes iref referenceType = .ok pairs ∧
      ∀ pair ∈ pairs, pair.1 ≠ itemId ∧ itemId ∉ pair.2
  pitm : layout.primaryItemId ≠ itemId

/-- The id of an inserted item is one that no table mentions just when the primary item is not
the one behind the largest in `iinf`. -/
theorem insertion_unmentioned_iff {input xmp output : List UInt8} {layout : MetaLayout}
    {located : LocatedXmp} (hrewrite : rewriteXmp input xmp = .ok output)
    (hlayout : findMetaLayout input = .ok layout)
    (hlocated : locateXmp input layout.iinf layout.iloc layout.iref layout.primaryItemId =
      .ok located) (habsent : located.existing = none) :
    Unmentioned input layout located.newItemId ↔
      layout.primaryItemId ≠ largestId located.iinf.itemIds + 1 := by
  obtain ⟨iloc, hl, ⟨parts⟩⟩ := parts_of_rewriteXmp hrewrite hlayout hlocated habsent
  have hfresh := hl.fresh
  constructor
  · intro h
    rw [← hl.maxItemId]
    exact h.pitm
  · intro hprimary
    constructor
    case iinf => exact ⟨_, hl.parseIinf_eq, hfresh⟩
    case iloc =>
      refine ⟨_, hl.parseIloc_eq, fun item hitem heq => hfresh ?_⟩
      rw [← heq]
      exact hl.known item hitem
    case iref =>
      intro iref hiref referenceType
      have happend := parts.iref_eq
      rw [Option.mem_def.mp hiref] at happend
      obtain ⟨pairs, hpairs, hknown⟩ := references_known happend referenceType
      refine ⟨pairs, hpairs, fun pair hpair => ⟨fun heq => hfresh ?_, fun hmem => hfresh ?_⟩⟩
      · rw [← heq]
        exact (hknown pair hpair).1
      · exact (hknown pair hpair).2 _ hmem
    case pitm => rwa [LocatedXmp.newItemId, hl.maxItemId]

/-! ## a file without a packet -/

/-- A box with a 32-bit size. -/
def shortBox (kind : String) (body : List UInt8) : List UInt8 :=
  toBe 4 (body.length + 8) ++ ascii kind ++ body

/-- A file of one `hvc1` item without a packet, whose `pitm` box names an item. -/
def onePhoto (primaryItemId : Nat) : List UInt8 :=
  shortBox "ftyp" (ascii "heic") ++
  shortBox "meta" ([0, 0, 0, 0] ++ shortBox "hdlr" [] ++
    shortBox "pitm" ([0, 0, 0, 0] ++ toBe 2 primaryItemId) ++
    shortBox "iinf" ([0, 0, 0, 0] ++ toBe 2 1 ++
      shortBox "infe" ([2, 0, 0, 0] ++ toBe 2 1 ++ toBe 2 0 ++ ascii "hvc1" ++ [0])) ++
    shortBox "iloc" ([0, 0, 0, 0, 0x44, 0] ++ toBe 2 1 ++
      (toBe 2 1 ++ toBe 2 0 ++ toBe 2 1 ++ toBe 4 119 ++ toBe 4 3))) ++
  shortBox "mdat" [7, 8, 9]

/-- What is read of the photo. -/
def photoLayout (primaryItemId : Nat) : MetaLayout where
  «meta» := ⟨12, 99, 8, ascii "meta"⟩
  iinf := ⟨46, 35, 8, ascii "iinf"⟩
  iloc := ⟨81, 30, 8, ascii "iloc"⟩
  iref := none
  primaryItemId := primaryItemId
  prefixSize := 4

def photoLocated : LocatedXmp where
  existing := none
  xmpItemId := none
  maxItemId := 1
  iinf := ⟨0, 4, 2, 1, [], [], [], [1]⟩

theorem photo_rewritten :
    ∃ output layout, rewriteXmp (onePhoto 1) (ascii "<x/>") = .ok output ∧
      output.length < 2 ^ 64 ∧ findMetaLayout output = .ok layout := by
  obtain ⟨layout, hrun⟩ := exists_of_isOk (by decide +kernel : (do
    let output ← rewriteXmp (onePhoto 1) (ascii "<x/>")
    ensure (output.length < 2 ^ 64) (invalidLayout "")
    findMetaLayout output).isOk = true)
  simp only [bind_eq_ok, ensure_eq_ok] at hrun
  obtain ⟨output, houtput, -, hlen, hlayout⟩ := hrun
  exact ⟨output, layout, houtput, hlen, hlayout⟩

/-- The packet becomes the item 2. -/
theorem photo_unmentioned_iff :
    Unmentioned (onePhoto 1) (photoLayout 1) 2 ↔
      (photoLayout 1).primaryItemId ≠ largestId photoLocated.iinf.itemIds + 1 := by
  obtain ⟨output, _, houtput, -, -⟩ := photo_rewritten
  exact @insertion_unmentioned_iff _ _ _ (photoLayout 1) photoLocated houtput
    (by decide +kernel) (by decide +kernel) rfl

/-- The only item has the id 1 and `pitm` names the item 2, which the packet becomes. -/
theorem primary_id_given_to_packet :
    findMetaLayout (onePhoto 2) = .ok (photoLayout 2) ∧
    locateXmp (onePhoto 2) (photoLayout 2).iinf (photoLayout 2).iloc (photoLayout 2).iref
      (photoLayout 2).primaryItemId = .ok photoLocated ∧
    (rewriteXmp (onePhoto 2) (ascii "<x/>")).isOk = true ∧
    ¬ Unmentioned (onePhoto 2) (photoLayout 2) photoLocated.newItemId :=
  ⟨by decide +kernel, by decide +kernel, by decide +kernel, fun h => h.pitm rfl⟩

end Kei.Heif
