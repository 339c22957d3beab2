import Kei.Changes.Delivery
import Mathlib.Data.List.Perm.Basic

/-!
# Kei.Changes.Orders

The events of a feed in which each record name occurs once.

A master is paired with its assets in the order in which these arrive, whichever
half comes first: what the buffer has emitted after any part of the feed is, up
to its order, a group for every master of that part (`Emitted`), and what it
holds is what the flush reports.  So the events are those of the set of the
records, up to the state id, which the first asset of a master takes from it.
-/

namespace Kei.Changes

open Str PhotoStream

variable {host : Host} {p : List Record} {r : Record} {name : String}

/-! ## what a set of records says -/

/-- An event without the id that its asset is recorded under. -/
def ChangeEvent.fact (e : ChangeEvent) : ChangeEvent :=
  { e with asset := e.asset.map (fun photo => { photo with stateRecordName := none }) }

/-- The assets of a master, in the order of the records. -/
def children (records : List Record) (name : String) : List Record :=
  records.filter (fun r => r.refersTo = some name)

/-- What a record reports by itself. -/
def standalone (host : Host) (r : Record) : List ChangeEvent :=
  (DeltaRecordBuffer.new.processRecord host r).2

def loneMaster (r : Record) : ChangeEvent :=
  ChangeEvent.new r.recordName (some "CPLMaster") (classifyChangeReason r)

def unpairedAsset (masterRef : String) (r : Record) : ChangeEvent :=
  { ChangeEvent.new r.recordName (some "CPLAsset") (classifyChangeReason r) with
    masterRecordName := some masterRef }

def pairFact (host : Host) (master asset : Record) : ChangeEvent :=
  (emitPaired host master asset
    (reconcileReasons (classifyChangeReason master) (classifyChangeReason asset)) false).fact

/-- What one of the records stands for: a master for its pairs, or for itself when it has no
assets; an asset for itself when it has no master. -/
def facts (host : Host) (records : List Record) (r : Record) : List ChangeEvent :=
  if r.isMaster r.recordName then
    if children records r.recordName = [] then [loneMaster r]
    else (children records r.recordName).map (pairFact host r)
  else
    match r.refersTo with
    | some name =>
        if records.any (Record.isMaster name) then [] else [unpairedAsset name r]
    | none => (standalone host r).map ChangeEvent.fact

/-! ## one record -/

/-- The buffer after the records of `p`, whose names are distinct. -/
structure Held (p : List Record) (b : DeltaRecordBuffer) : Prop where
  holds : Holds p b
  pending : ∀ name, b.pendingMasters.lookup name =
    if children p name = [] then latestMaster name p else none
  nonempty : ∀ name, b.pendingAssets.lookup name ≠ some []

/-- What is emitted for a record and the ones after it that refer to it. -/
def emittedFor (host : Host) (p : List Record) (r : Record) : List ChangeEvent :=
  if r.isMaster r.recordName then
    emitPairedGroup host r (children p r.recordName) (classifyChangeReason r)
  else standalone host r

theorem children_snoc (p : List Record) (r : Record) (name : String) :
    children (p ++ [r]) name = children p name ++ if r.refersTo = some name then [r] else [] :=
  refersTo_snoc name p r

theorem emitPairedGroup_snoc (host : Host) (master : Record) (assets : List Record)
    (asset : Record) (reason : ChangeReason) :
    emitPairedGroup host master (assets ++ [asset]) reason =
      emitPairedGroup host master assets reason ++
        [emitPaired host master asset (reconcileReasons reason (classifyChangeReason asset))
          (0 < assets.length)] := by
  have hflag : ∀ entry ∈ assets.zipIdx,
      (decide (1 < (assets ++ [asset]).length) && decide (0 < entry.2)) =
        (decide (1 < assets.length) && decide (0 < entry.2)) := by
    intro entry hentry
    have hlt := (List.mem_zipIdx hentry).2.1
    by_cases hpos : 0 < entry.2
    · have hone : 1 < assets.length := by omega
      have hone' : 0 < assets.length := by omega
      simp [hone, hone']
    · simp [hpos]
  unfold emitPairedGroup
  rw [List.zipIdx_append, List.map_append]
  congr 1
  · apply List.map_congr_left
    intro entry hentry
    rw [hflag entry hentry]
  · simp

theorem latestMaster_fresh (h : name ∉ p.map (·.recordName)) : latestMaster name p = none := by
  rw [latestMaster, List.getLast?_eq_none_iff, List.filter_eq_nil_iff]
  intro r hr hmaster
  exact h (List.mem_map.mpr ⟨r, hr, isMaster_name hmaster⟩)

theorem held_new : Held [] .new where
  holds := holds_new
  pending := fun name => by simp [DeltaRecordBuffer.new, children, latestMaster]
  nonempty := fun name => by simp [DeltaRecordBuffer.new]

variable {b : DeltaRecordBuffer}

theorem Held.other (h : Held p b) (hmaster : ∀ name, r.isMaster name = false)
    (hasset : r.refersTo = none) :
    Held (p ++ [r]) b where
  holds := h.holds.other hmaster hasset
  pending := fun name => by
    rw [children_snoc, latestMaster_snoc, hmaster, hasset]
    simpa using h.pending name
  nonempty := h.nonempty

theorem isMaster_of_ne (h : name ≠ r.recordName) : r.isMaster name = false := by
  simp [Record.isMaster, Ne.symm h]

/-- A master comes: the assets that wait for it are its group so far. -/
theorem Held.placeMaster (h : Held p b) (hmaster : r.isMaster r.recordName = true)
    (hasset : r.refersTo = none) (hfresh : r.recordName ∉ p.map (·.recordName)) :
    Held (p ++ [r]) (b.placeMaster host r (classifyChangeReason r)).1 ∧
      (b.placeMaster host r (classifyChangeReason r)).2 =
        emitPairedGroup host r (children p r.recordName) (classifyChangeReason r) := by
  have hholds : Holds (p ++ [r]) (b.placeMaster host r (classifyChangeReason r)).1 :=
    (placeMaster_spec (a := "") h.holds hmaster hasset).1
  have hlatest := latestMaster_fresh hfresh
  have hwaits := h.holds.assets r.recordName hlatest
  have hsame (name : String) : children (p ++ [r]) name = children p name := by
    simp [children_snoc, hasset]
  have hself : latestMaster r.recordName (p ++ [r]) = some r := by simp [latestMaster_snoc, hmaster]
  have hother (name : String) (hne : name ≠ r.recordName) :
      latestMaster name (p ++ [r]) = latestMaster name p := by
    simp [latestMaster_snoc, isMaster_of_ne hne]
  unfold DeltaRecordBuffer.placeMaster at hholds ⊢
  cases hlookup : b.pendingAssets.lookup r.recordName with
  | some assets =>
      rw [hlookup] at hwaits hholds
      have hchildren : children p r.recordName = assets := hwaits.symm
      have hne : children p r.recordName ≠ [] := by
        intro hnil
        exact h.nonempty r.recordName (by rw [hlookup, ← hchildren, hnil])
      refine ⟨⟨hholds, fun name => ?_, fun name => ?_⟩, by rw [hchildren]⟩
      · by_cases hname : name = r.recordName
        · subst hname
          have hpending := h.pending r.recordName
          rw [if_neg hne] at hpending
          simpa [hsame, hne] using hpending
        · rw [hsame, hother name hname]
          exact h.pending name
      · by_cases hname : name = r.recordName
        · subst hname
          simp
        · rw [AList.lookup_erase_ne hname]
          exact h.nonempty name
  | none =>
      rw [hlookup] at hwaits hholds
      have hchildren : children p r.recordName = [] := hwaits.symm
      refine ⟨⟨hholds, fun name => ?_, h.nonempty⟩, by simp [hchildren, emitPairedGroup]⟩
      by_cases hname : name = r.recordName
      · subst hname
        rw [hsame, hchildren, if_pos rfl, hself, AList.lookup_insert]
      · rw [hsame, hother name hname, AList.lookup_insert_ne hname]
        exact h.pending name

/-- An asset comes: it is the next one of the group of its master, if that is there. -/
theorem Held.placeAsset (h : Held p b) (hasset : r.refersTo = some name)
    (href : r.masterRef = some name) (hmaster : ∀ name, r.isMaster name = false) :
    Held (p ++ [r]) (b.placeAsset host r (classifyChangeReason r)).1 ∧
      (b.placeAsset host r (classifyChangeReason r)).2 =
        ((latestMaster name p).map (fun master => emitPaired host master r
          (reconcileReasons (classifyChangeReason master) (classifyChangeReason r))
          (0 < (children p name).length))).toList := by
  have hholds : Holds (p ++ [r]) (b.placeAsset host r (classifyChangeReason r)).1 :=
    (placeAsset_spec (a := "") h.holds hasset href hmaster).1
  have hlatest (name : String) : latestMaster name (p ++ [r]) = latestMaster name p := by
    simp [latestMaster_snoc, hmaster]
  have hother (name' : String) (hne : name' ≠ name) : children (p ++ [r]) name' =
      children p name' := by
    simp [children_snoc, hasset, Ne.symm hne]
  have hself : children (p ++ [r]) name ≠ [] := by simp [children_snoc, hasset]
  have hpendingAt := h.pending name
  have hmasters := h.holds.masters name
  simp only [DeltaRecordBuffer.placeAsset, href] at hholds ⊢
  cases hpending : b.pendingMasters.lookup name with
  | some master =>
      rw [hpending] at hpendingAt hmasters hholds
      have hnone : children p name = [] := by
        by_contra hne
        rw [if_neg hne] at hpendingAt
        contradiction
      have hfound : latestMaster name p = some master := by simpa using hmasters.symm
      refine ⟨⟨hholds, fun name' => ?_, h.nonempty⟩, by simp [hfound, hnone]⟩
      by_cases hname : name' = name
      · subst hname
        rw [if_neg hself]
        exact AList.lookup_erase _ _
      · rw [hother name' hname, hlatest, AList.lookup_erase_ne hname]
        exact h.pending name'
  | none =>
      rw [hpending] at hpendingAt hmasters hholds
      cases hpaired : b.pairedMasters.lookup name with
      | some master =>
          rw [hpaired] at hmasters hholds
          have hfound : latestMaster name p = some master := by simpa using hmasters.symm
          have hsome : children p name ≠ [] := by
            intro hnil
            rw [if_pos hnil, hfound] at hpendingAt
            contradiction
          have hpos : 0 < (children p name).length := List.length_pos_iff.mpr hsome
          refine ⟨⟨hholds, fun name' => ?_, h.nonempty⟩, by simp [hfound, hpos]⟩
          by_cases hname : name' = name
          · subst hname
            rw [if_neg hself]
            exact hpending
          · rw [hother name' hname, hlatest]
            exact h.pending name'
      | none =>
          rw [hpaired] at hmasters hholds
          have hfound : latestMaster name p = none := by simpa using hmasters.symm
          refine ⟨⟨hholds, fun name' => ?_, fun name' => ?_⟩, by simp [hfound]⟩
          · by_cases hname : name' = name
            · subst hname
              rw [if_neg hself]
              exact hpending
            · rw [hother name' hname, hlatest]
              exact h.pending name'
          · by_cases hname : name' = name
            · subst hname
              simp
            · rw [AList.lookup_insert_ne hname]
              exact h.nonempty name'

/-- A record that is neither half of a pair is reported whatever the buffer holds. -/
theorem processRecord_standalone (host : Host) (b : DeltaRecordBuffer)
    (hmaster : r.isMaster r.recordName = false) (hasset : r.refersTo = none) :
    b.processRecord host r = (b, standalone host r) := by
  unfold standalone DeltaRecordBuffer.processRecord
  dsimp only
  split
  · rfl
  · next hblank =>
      split
      · split
        · rfl
        · split
          · rfl
          · split <;> rfl
      · next hdeleted =>
          split
          · next htype => simp [Record.isMaster, hblank, hdeleted, htype] at hmaster
          · next htype =>
              have href : r.masterRef = none := by
                simpa [Record.refersTo, hblank, hdeleted, htype] using hasset
              simp [DeltaRecordBuffer.placeAsset, href]
          · rfl
          · rfl
          · rfl

/-- What is emitted when a record comes after those of `p`. -/
def emittedAt (host : Host) (p : List Record) (r : Record) : List ChangeEvent :=
  if r.isMaster r.recordName then
    emitPairedGroup host r (children p r.recordName) (classifyChangeReason r)
  else
    match r.refersTo with
    | some name =>
        ((latestMaster name p).map (fun master => emitPaired host master r
          (reconcileReasons (classifyChangeReason master) (classifyChangeReason r))
          (0 < (children p name).length))).toList
    | none => standalone host r

theorem Held.processRecord (h : Held p b) (hfresh : r.recordName ∉ p.map (·.recordName)) :
    Held (p ++ [r]) (b.processRecord host r).1 ∧
      (b.processRecord host r).2 = emittedAt host p r := by
  rcases Record.kinds host "" b r with ⟨hmaster, hasset, -⟩ | ⟨hmaster, hasset, -, hrun⟩ |
    ⟨name, hasset, href, -, hmaster, -, hrun⟩
  · rw [processRecord_standalone host b (hmaster _) hasset]
    refine ⟨h.other hmaster hasset, ?_⟩
    simp [emittedAt, hmaster, hasset]
  · rw [hrun]
    simpa [emittedAt, hmaster] using h.placeMaster hmaster hasset hfresh
  · rw [hrun]
    simpa [emittedAt, hmaster, hasset] using h.placeAsset hasset href hmaster

/-! ## all records -/

theorem standalone_asset (hasset : r.refersTo = some name) : standalone host r = [] := by
  rcases Record.kinds host "" .new r with ⟨-, hnone, -⟩ | ⟨-, hnone, -⟩ |
    ⟨name', hsome, href, -, hmaster, -, hrun⟩
  · simp [hasset] at hnone
  · simp [hasset] at hnone
  · rw [standalone, hrun, (held_new.placeAsset hsome href hmaster).2]
    rfl

theorem emittedFor_snoc {x : Record} (h : r.refersTo ≠ some x.recordName) :
    emittedFor host (p ++ [r]) x = emittedFor host p x := by
  simp [emittedFor, children_snoc, h]

theorem apart_of_nodup {α κ : Type} {f : α → κ} {l before after : List α} {x : α}
    (h : (l.map f).Nodup) (hl : l = before ++ x :: after) :
    ∀ y, y ∈ before ∨ y ∈ after → f y ≠ f x := by
  intro y hy heq
  rw [hl, List.map_append, List.map_cons, List.nodup_append] at h
  cases hy with
  | inl hbefore => exact h.2.2 (f y) (List.mem_map_of_mem hbefore) (f x) (by simp) heq
  | inr hafter => exact (List.nodup_cons.mp h.2.1).1 (heq ▸ List.mem_map_of_mem hafter)

theorem flatMap_single {α β : Type} {f : α → List β} {l before after : List α} {x : α}
    (hl : l = before ++ x :: after) (hnone : ∀ y, y ∈ before ∨ y ∈ after → f y = []) :
    l.flatMap f = f x := by
  have hbefore : before.flatMap f = [] := by
    rw [List.flatMap_eq_nil_iff]
    exact fun y hy => hnone y (.inl hy)
  have hafter : after.flatMap f = [] := by
    rw [List.flatMap_eq_nil_iff]
    exact fun y hy => hnone y (.inr hy)
  simp [hl, hbefore, hafter]

theorem flatMap_grow {α β : Type} {f g : α → List β} {l before after : List α} {x : α}
    {more : List β} (hl : l = before ++ x :: after) (hx : f x = g x ++ more)
    (hsame : ∀ y, y ∈ before ∨ y ∈ after → f y = g y) :
    (l.flatMap f).Perm (l.flatMap g ++ more) := by
  have hbefore := List.flatMap_congr (fun y hy => hsame y (.inl hy))
  have hafter := List.flatMap_congr (fun y hy => hsame y (.inr hy))
  rw [hl, List.flatMap_append, List.flatMap_append, List.flatMap_cons, List.flatMap_cons, hbefore,
    hafter, hx]
  simp only [List.append_assoc]
  exact (List.perm_append_comm.append_left _).append_left _

theorem groups_snoc (hnames : (p.map (·.recordName)).Nodup) :
    (p.flatMap (emittedFor host (p ++ [r])) ++ emittedFor host (p ++ [r]) r).Perm
      (p.flatMap (emittedFor host p) ++ emittedAt host p r) := by
  cases hasset : r.refersTo with
  | none =>
      have hsame : ∀ x ∈ p, emittedFor host (p ++ [r]) x = emittedFor host p x :=
        fun x _ => emittedFor_snoc (by simp [hasset])
      rw [List.flatMap_congr hsame]
      simp [emittedFor, emittedAt, children_snoc, hasset]
  | some name =>
      have hnot := isMaster_of_refersTo hasset
      have hself : emittedFor host (p ++ [r]) r = [] := by
        simp [emittedFor, hnot, standalone_asset hasset]
      rw [hself, List.append_nil]
      cases hfound : latestMaster name p with
      | none =>
          have hsame : ∀ x ∈ p, emittedFor host (p ++ [r]) x = emittedFor host p x := by
            intro x hx
            by_cases hname : x.recordName = name
            · have hother : x.isMaster x.recordName = false := by
                rw [latestMaster, List.getLast?_eq_none_iff, List.filter_eq_nil_iff] at hfound
                simpa [hname] using hfound x hx
              simp [emittedFor, hother]
            · exact emittedFor_snoc (by simpa [hasset] using Ne.symm hname)
          rw [List.flatMap_congr hsame]
          simp [emittedAt, hnot, hasset, hfound]
      | some master =>
          have hmaster := latestMaster_isMaster hfound
          have hname := isMaster_name hmaster
          have hmem : master ∈ p := (List.mem_filter.mp (List.mem_of_getLast? hfound)).1
          obtain ⟨before, after, hp⟩ := List.append_of_mem hmem
          have hsame : ∀ x, x ∈ before ∨ x ∈ after →
              emittedFor host (p ++ [r]) x = emittedFor host p x := by
            intro x hx
            apply emittedFor_snoc
            have hne := apart_of_nodup hnames hp x hx
            rw [hasset, ← hname]
            simpa using hne.symm
          have hgroup : emittedFor host (p ++ [r]) master =
              emittedFor host p master ++ emittedAt host p r := by
            simp [emittedFor, hmaster, hname, children_snoc, hasset, emitPairedGroup_snoc,
              emittedAt, hnot, hfound]
          exact flatMap_grow hp hgroup hsame

/-- **What the buffer has emitted** after some records is a group for every master of them. -/
theorem processRecords_groups (h : Held p b) (records : List Record)
    (hnames : ((p ++ records).map (·.recordName)).Nodup) :
    Held (p ++ records) (b.processRecords host records).1 ∧
      (p.flatMap (emittedFor host p) ++ (b.processRecords host records).2).Perm
        ((p ++ records).flatMap (emittedFor host (p ++ records))) := by
  induction records generalizing p b with
  | nil => simpa [DeltaRecordBuffer.processRecords] using h
  | cons r records ih =>
      have hsplit : p ++ r :: records = p ++ [r] ++ records := by simp
      rw [hsplit] at hnames ⊢
      have hprefix : ((p ++ [r]).map (·.recordName)).Nodup := by
        rw [List.map_append] at hnames
        exact (List.nodup_append.mp hnames).1
      rw [List.map_append, List.nodup_append] at hprefix
      have hfresh : r.recordName ∉ p.map (·.recordName) := by
        intro hmem
        exact hprefix.2.2 r.recordName hmem r.recordName (by simp) rfl
      have hplaced : Held (p ++ [r]) (b.processRecord host r).1 ∧
          (b.processRecord host r).2 = emittedAt host p r := h.processRecord hfresh
      obtain ⟨hone, hevents⟩ := hplaced
      obtain ⟨hrest, hperm⟩ := ih hone hnames
      rw [processRecords_cons]
      refine ⟨hrest, ?_⟩
      rw [hevents, ← List.append_assoc]
      refine ((groups_snoc hprefix.1).symm.append_right _).trans ?_
      simpa using hperm

/-! ## the flush -/

/-- A master that no asset refers to. -/
def IsLone (records : List Record) (r : Record) : Prop :=
  r.isMaster r.recordName = true ∧ children records r.recordName = []

instance (records : List Record) (r : Record) : Decidable (IsLone records r) :=
  inferInstanceAs (Decidable (_ ∧ _))

/-- An asset whose master is not there. -/
def Waits (records : List Record) (r : Record) : Prop :=
  r.refersTo.any (fun name => (latestMaster name records).isNone) = true

instance (records : List Record) (r : Record) : Decidable (Waits records r) :=
  inferInstanceAs (Decidable (_ = _))

def unpaired (r : Record) : ChangeEvent := unpairedAsset (r.refersTo.getD "") r

/-- What the flush reports of a record. -/
def leftFor (records : List Record) (r : Record) : List ChangeEvent :=
  (if IsLone records r then [loneMaster r] else []) ++ if Waits records r then [unpaired r] else []

variable {records : List Record} {master : Record}

theorem latestMaster_of_mem (hnames : (records.map (·.recordName)).Nodup) (hmem : master ∈ records)
    (hmaster : master.isMaster name = true) : latestMaster name records = some master := by
  cases hlatest : latestMaster name records with
  | none =>
      rw [latestMaster, List.getLast?_eq_none_iff, List.filter_eq_nil_iff] at hlatest
      exact absurd hmaster (hlatest master hmem)
  | some master' =>
      have hmem' : master' ∈ records := (List.mem_filter.mp (List.mem_of_getLast? hlatest)).1
      have hname' := isMaster_name (latestMaster_isMaster hlatest)
      have heq := List.inj_on_of_nodup_map hnames hmem' hmem
        (hname'.trans (isMaster_name hmaster).symm)
      rw [heq]

theorem flatMap_if {α β : Type} (P : α → Prop) [DecidablePred P] (f : α → β) (l : List α) :
    l.flatMap (fun x => if P x then [f x] else []) = (l.filter P).map f := by
  induction l with
  | nil => rfl
  | cons x l ih =>
      by_cases hx : P x <;> simp [hx, ih]

theorem flatMap_keys {α κ : Type} [DecidableEq κ] (k : α → Option κ) (keys : List κ)
    (hkeys : keys.Nodup) (l : List α) (hall : ∀ x ∈ l, ∃ key ∈ keys, k x = some key) :
    (keys.flatMap (fun key => l.filter (fun x => k x = some key))).Perm l := by
  induction keys generalizing l with
  | nil =>
      have hnil : l = [] := by
        cases l with
        | nil => rfl
        | cons x l => simpa using hall x
      simp [hnil]
  | cons key keys ih =>
      obtain ⟨hkey, hrest⟩ := List.nodup_cons.mp hkeys
      have hothers := ih hrest (l.filter (fun x => !decide (k x = some key))) (by
        intro x hx
        obtain ⟨hmem, hne⟩ := List.mem_filter.mp hx
        obtain ⟨key', hkey', hk⟩ := hall x hmem
        cases List.mem_cons.mp hkey' with
        | inl heq => simp [hk, heq] at hne
        | inr hin => exact ⟨key', hin, hk⟩)
      have hsame : keys.flatMap (fun key' => l.filter (fun x => k x = some key')) =
          keys.flatMap (fun key' => (l.filter (fun x => !decide (k x = some key))).filter
            (fun x => k x = some key')) := by
        apply List.flatMap_congr
        intro key' hkey'
        rw [List.filter_filter]
        apply List.filter_congr
        intro x _
        by_cases hx : k x = some key'
        · have hne : key' ≠ key := fun heq => hkey (heq ▸ hkey')
          simp [hx, hne]
        · simp [hx]
      rw [List.flatMap_cons, hsame]
      exact (hothers.append_left _).trans (List.filter_append_perm _ l)

theorem flush_masters (h : Held records b) (hnames : (records.map (·.recordName)).Nodup)
    (drain : DrainOrder) :
    ((drain.masters b.pendingMasters.keys).flatMap (fun name =>
      ((b.pendingMasters.lookup name).map (fun rec =>
        ChangeEvent.new name (some "CPLMaster") (classifyChangeReason rec))).toList)).Perm
      ((records.filter (IsLone records)).map loneMaster) := by
  have hlookup : ∀ r ∈ records.filter (IsLone records),
      b.pendingMasters.lookup r.recordName = some r := by
    intro r hr
    obtain ⟨hmem, hlone⟩ := List.mem_filter.mp hr
    have hlone : IsLone records r := by simpa using hlone
    rw [h.pending, if_pos hlone.2, latestMaster_of_mem hnames hmem hlone.1]
  have hkeys : (drain.masters b.pendingMasters.keys).Perm
      ((records.filter (IsLone records)).map (·.recordName)) := by
    have hnodup : ((records.filter (IsLone records)).map (·.recordName)).Nodup :=
      hnames.sublist (List.filter_sublist.map _)
    apply (List.perm_ext_iff_of_nodup
      ((drain.masters_perm _).nodup_iff.mpr (AList.keys_nodup _)) hnodup).mpr
    intro name
    rw [(drain.masters_perm _).mem_iff, ← AList.mem_keys, ← AList.lookup_isSome, h.pending,
      List.mem_map]
    constructor
    · intro hsome
      split at hsome
      · next hnone =>
          obtain ⟨master, hfound⟩ := Option.isSome_iff_exists.mp hsome
          have hmaster := latestMaster_isMaster hfound
          have hname := isMaster_name hmaster
          have hmem := (List.mem_filter.mp (List.mem_of_getLast? hfound)).1
          refine ⟨master, List.mem_filter.mpr ⟨hmem, ?_⟩, hname⟩
          simp [IsLone, hname, hmaster, hnone]
      · simp at hsome
    · rintro ⟨r, hr, rfl⟩
      rw [← h.pending, hlookup r hr]
      rfl
  have hevents := hkeys.flatMap_right (fun name =>
    ((b.pendingMasters.lookup name).map (fun rec =>
      ChangeEvent.new name (some "CPLMaster") (classifyChangeReason rec))).toList)
  rw [List.flatMap_map] at hevents
  have hlone : (records.filter (IsLone records)).flatMap (fun r =>
      ((b.pendingMasters.lookup r.recordName).map (fun rec =>
        ChangeEvent.new r.recordName (some "CPLMaster") (classifyChangeReason rec))).toList) =
      (records.filter (IsLone records)).map loneMaster := by
    rw [List.map_eq_flatMap]
    apply List.flatMap_congr
    intro r hr
    rw [hlookup r hr]
    rfl
  rwa [hlone] at hevents

theorem flush_assets (h : Held records b) (drain : DrainOrder) :
    ((drain.assets b.pendingAssets.keys).flatMap (fun masterRef =>
      ((b.pendingAssets.lookup masterRef).getD []).map (unpairedAsset masterRef))).Perm
      ((records.filter (Waits records)).map unpaired) := by
  have hkeys : ∀ r ∈ records.filter (Waits records),
      ∃ name ∈ drain.assets b.pendingAssets.keys, r.refersTo = some name := by
    intro r hr
    obtain ⟨hmem, hwaits⟩ := List.mem_filter.mp hr
    have hwaits : Waits records r := by simpa using hwaits
    obtain ⟨name, hasset, hnone⟩ := (Option.any_eq_true _ _).mp hwaits
    refine ⟨name, (drain.assets_perm _).mem_iff.mpr (AList.mem_keys.mp ?_), hasset⟩
    by_contra hkey
    have hheld := h.holds.assets name (by simpa using hnone)
    rw [AList.lookup_eq_none.mpr hkey] at hheld
    have hin : r ∈ records.filter (fun r => r.refersTo = some name) :=
      List.mem_filter.mpr ⟨hmem, by simpa using hasset⟩
    rw [← hheld] at hin
    simp at hin
  have hgroups := (flatMap_keys Record.refersTo (drain.assets b.pendingAssets.keys)
    ((drain.assets_perm _).nodup_iff.mpr (AList.keys_nodup _)) _ hkeys).map unpaired
  rw [List.map_flatMap] at hgroups
  have hsame : (drain.assets b.pendingAssets.keys).flatMap (fun masterRef =>
      ((b.pendingAssets.lookup masterRef).getD []).map (unpairedAsset masterRef)) =
      (drain.assets b.pendingAssets.keys).flatMap (fun name =>
        ((records.filter (Waits records)).filter (fun r => r.refersTo = some name)).map
          unpaired) := by
    apply List.flatMap_congr
    intro name hname
    have hkey := (drain.assets_perm _).mem_iff.mp hname
    have hlatest : latestMaster name records = none := by
      by_contra hne
      exact AList.lookup_eq_none.mp (h.holds.none_assets name hne) (AList.mem_keys.mpr hkey)
    rw [h.holds.assets name hlatest, List.filter_filter]
    have hfilter : records.filter (fun r => decide (r.refersTo = some name) &&
        decide (Waits records r)) = records.filter (fun r => r.refersTo = some name) := by
      apply List.filter_congr
      intro r _
      by_cases hasset : r.refersTo = some name
      · simp [Waits, hasset, hlatest]
      · simp [hasset]
    rw [hfilter]
    apply List.map_congr_left
    intro r hr
    have hasset : r.refersTo = some name := by simpa using (List.mem_filter.mp hr).2
    simp [unpaired, hasset]
  rw [hsame]
  exact hgroups

/-- **The flush** reports every lone half. -/
theorem flush_left (h : Held records b) (hnames : (records.map (·.recordName)).Nodup)
    (drain : DrainOrder) : (b.flush drain).Perm (records.flatMap (leftFor records)) := by
  have hmasters := flush_masters h hnames drain
  have hassets := flush_assets h drain
  have hleft := List.flatMap_append_perm records
    (fun r => if IsLone records r then [loneMaster r] else [])
    (fun r => if Waits records r then [unpaired r] else [])
  rw [flatMap_if, flatMap_if] at hleft
  exact (hmasters.append hassets).trans hleft

/-- **The events of a feed**, in any order: a group for every master, and the lone halves. -/
theorem changeEvents_groups (host : Host) (drain : DrainOrder) (pages : List (List Record))
    (hnames : (pages.flatten.map (·.recordName)).Nodup) :
    (changeEvents host drain pages).Perm (pages.flatten.flatMap (fun r =>
      emittedFor host pages.flatten r ++ leftFor pages.flatten r)) := by
  obtain ⟨hheld, hperm⟩ := processRecords_groups (p := []) held_new pages.flatten
    (by simpa using hnames)
  rw [changeEvents, processPages_eq]
  exact (hperm.append (flush_left hheld hnames drain)).trans
    (List.flatMap_append_perm _ _ _)

/-! ## facts -/

theorem parseRelationDelta_asset (r : Record) (reason : ChangeReason) :
    (parseRelationDelta r reason).asset = none := by
  unfold parseRelationDelta
  dsimp only
  split <;> rfl

/-- Whether a record has to be accounted for. -/
def Record.isHalf (r : Record) : Prop := r.recordType = "CPLMaster" ∨ r.recordType = "CPLAsset"

/-- What is reported of a record by itself carries no asset, and a half that is not to be paired
is reported once. -/
theorem standalone_spec (host : Host) (r : Record) :
    (∀ e ∈ standalone host r, e.asset = none) ∧
      (r.isHalf → r.isMaster r.recordName = false → r.refersTo = none →
        (standalone host r).length = 1) := by
  unfold standalone DeltaRecordBuffer.processRecord
  dsimp only
  split
  · simp [ChangeEvent.new]
  · next hblank =>
      split
      · split
        · simp [parseRelationDelta_asset]
        · split
          · simp [parseAlbumDelta, ChangeEvent.new]
          · split
            · simp [parseRelationDelta_asset]
            · simp [ChangeEvent.new]
      · next hdeleted =>
          split
          · next htype =>
              have hmaster : r.isMaster r.recordName = true := by
                simp [Record.isMaster, hblank, hdeleted, htype]
              simp [DeltaRecordBuffer.placeMaster, DeltaRecordBuffer.new, hmaster]
          · next htype =>
              cases href : r.masterRef with
              | none => simp [DeltaRecordBuffer.placeAsset, href, ChangeEvent.new]
              | some name =>
                  have hasset : r.refersTo = some name := by
                    simp [Record.refersTo, hblank, hdeleted, htype, href]
                  simp [DeltaRecordBuffer.placeAsset, href, DeltaRecordBuffer.new, hasset]
          · simp [parseAlbumDelta, ChangeEvent.new]
          · simp [parseRelationDelta_asset]
          · next hmaster hasset _ _ =>
              have hmaster : ¬ r.recordType = "CPLMaster" := hmaster
              have hasset : ¬ r.recordType = "CPLAsset" := hasset
              simp [Record.isHalf, hmaster, hasset]

theorem emitPaired_fact (host : Host) (master asset : Record) (reason : ChangeReason)
    (useAssetStateId : Bool) :
    (emitPaired host master asset reason useAssetStateId).fact =
      (emitPaired host master asset reason false).fact := by
  unfold emitPaired
  dsimp only
  split
  · rfl
  · cases useAssetStateId <;> rfl

theorem emitPairedGroup_facts (host : Host) (master : Record) (assets : List Record) :
    (emitPairedGroup host master assets (classifyChangeReason master)).map ChangeEvent.fact =
      assets.map (pairFact host master) := by
  have hfst : assets = assets.zipIdx.map Prod.fst := by simp
  unfold emitPairedGroup
  conv_rhs => rw [hfst]
  rw [List.map_map, List.map_map]
  apply List.map_congr_left
  intro entry _
  exact emitPaired_fact _ _ _ _ _

theorem latestMaster_eq_none :
    latestMaster name records = none ↔ records.any (Record.isMaster name) = false := by
  simp [latestMaster]

/-- A record stands for what was emitted for it and what the flush reports of it. -/
theorem facts_eq (host : Host) (records : List Record) (r : Record) :
    facts host records r =
      (emittedFor host records r ++ leftFor records r).map ChangeEvent.fact := by
  by_cases hmaster : r.isMaster r.recordName = true
  · have hasset : r.refersTo = none := by
      cases hasset : r.refersTo with
      | none => rfl
      | some name => simp [isMaster_of_refersTo hasset] at hmaster
    by_cases hchildren : children records r.recordName = []
    · simp [facts, emittedFor, leftFor, IsLone, Waits, hmaster, hasset, hchildren, emitPairedGroup,
        ChangeEvent.fact, loneMaster, ChangeEvent.new]
    · simp [facts, emittedFor, leftFor, IsLone, Waits, hmaster, hasset, hchildren,
        emitPairedGroup_facts]
  · cases hasset : r.refersTo with
    | none => simp [facts, emittedFor, leftFor, IsLone, Waits, hmaster, hasset]
    | some name =>
        by_cases hfound : latestMaster name records = none
        · have hany := latestMaster_eq_none.mp hfound
          simp [facts, emittedFor, leftFor, IsLone, Waits, hmaster, hasset, hany, hfound, unpaired,
            standalone_asset hasset, ChangeEvent.fact, unpairedAsset, ChangeEvent.new]
        · have hany : records.any (Record.isMaster name) = true := by
            simpa using latestMaster_eq_none.not.mp hfound
          have hsome : (latestMaster name records).isNone = false := by
            simpa [Option.isSome_iff_ne_none] using hfound
          simp [facts, emittedFor, leftFor, IsLone, Waits, hmaster, hasset, hany, hsome,
            standalone_asset hasset]

theorem children_perm {records records' : List Record} (h : records.Perm records')
    (name : String) : (children records name).Perm (children records' name) := h.filter _

theorem facts_perm (host : Host) {records records' : List Record} (h : records.Perm records')
    (r : Record) : (facts host records r).Perm (facts host records' r) := by
  have hchildren := children_perm h r.recordName
  have hnil : children records r.recordName = [] ↔ children records' r.recordName = [] := by
    constructor
    · intro hnil
      rw [hnil] at hchildren
      exact List.nil_perm.mp hchildren
    · intro hnil
      rw [hnil] at hchildren
      exact List.perm_nil.mp hchildren
  unfold facts
  split
  · by_cases hempty : children records r.recordName = []
    · rw [if_pos hempty, if_pos (hnil.mp hempty)]
    · rw [if_neg hempty, if_neg (fun h' => hempty (hnil.mpr h'))]
      exact hchildren.map _
  · split
    · next name _ =>
        have hany : records.any (Record.isMaster name) = records'.any (Record.isMaster name) := by
          rw [Bool.eq_iff_iff]
          simp [h.mem_iff]
        rw [hany]
    · exact .refl _

/-! ## state ids -/

/-- The assets that the events make of a master. -/
def kids (events : List ChangeEvent) (name : String) : List PhotoAsset :=
  (events.filterMap (·.asset)).filter (fun photo => photo.recordName = name)

/-- The pair of two records has an asset, unless it is created without a date. -/
theorem emitPaired_asset (host : Host) {master asset : Record} (flag : Bool)
    (hmaster : isBlank master.recordName = false) (hasset : isBlank asset.recordName = false) :
    (emitPaired host master asset
        (reconcileReasons (classifyChangeReason master) (classifyChangeReason asset)) flag).asset =
      if (⟨asset, some master⟩ : Delivery).isComplete host then
        some { PhotoAsset.fromRecords master asset with
          stateRecordName := if flag then some asset.recordName else none }
      else none := by
  have hreason : (⟨asset, some master⟩ : Delivery).reason =
      reconcileReasons (classifyChangeReason master) (classifyChangeReason asset) := rfl
  generalize reconcileReasons (classifyChangeReason master) (classifyChangeReason asset) = reason
    at hreason
  by_cases hcreated : reason = .created
  · cases hdate : assetDate host asset.fields with
    | none =>
        simp [emitPaired, PhotoAsset.tryFromRecords, hmaster, hasset, Delivery.isComplete, hreason,
          hcreated, hdate, ChangeEvent.new]
    | some date =>
        cases flag <;>
          simp [emitPaired, PhotoAsset.tryFromRecords, hmaster, hasset, Delivery.isComplete,
            hreason, hdate, PhotoAsset.fromRecords]
  · cases flag <;>
      simp [emitPaired, PhotoAsset.tryFromRecords, hmaster, hasset, Delivery.isComplete, hreason,
        hcreated, PhotoAsset.fromRecords]

theorem emitPairedGroup_cons (host : Host) (master asset : Record) (assets : List Record)
    (reason : ChangeReason) :
    emitPairedGroup host master (asset :: assets) reason =
      emitPaired host master asset (reconcileReasons reason (classifyChangeReason asset)) false ::
        assets.map (fun asset => emitPaired host master asset
          (reconcileReasons reason (classifyChangeReason asset)) true) := by
  induction assets using List.reverseRecOn with
  | nil => rfl
  | append_singleton assets last ih =>
      rw [← List.cons_append, emitPairedGroup_snoc, ih]
      simp

theorem emitPaired_recordName {host : Host} {master asset : Record} {reason : ChangeReason}
    {flag : Bool} {photo : PhotoAsset}
    (h : (emitPaired host master asset reason flag).asset = some photo) :
    photo.recordName = master.recordName := by
  unfold emitPaired at h
  dsimp only at h
  split at h
  · simp [ChangeEvent.new] at h
  · next made hmade =>
      have hrecords : made = .fromRecords master asset := by
        unfold PhotoAsset.tryFromRecords at hmade
        repeat' split at hmade
        all_goals simp_all
      subst hrecords
      cases flag <;> (simp at h; rw [← h]; rfl)

theorem kids_append (events events' : List ChangeEvent) (name : String) :
    kids (events ++ events') name = kids events name ++ kids events' name := by
  simp [kids]

theorem kids_flatMap {α : Type} (l : List α) (f : α → List ChangeEvent) (name : String) :
    kids (l.flatMap f) name = l.flatMap (fun x => kids (f x) name) := by
  induction l with
  | nil => rfl
  | cons x l ih => rw [List.flatMap_cons, kids_append, ih, List.flatMap_cons]

theorem kids_eq_nil {events : List ChangeEvent}
    (h : ∀ e ∈ events, ∀ photo, e.asset = some photo → photo.recordName ≠ name) :
    kids events name = [] := by
  rw [kids, List.filter_eq_nil_iff]
  intro photo hphoto
  obtain ⟨e, he, hasset⟩ := List.mem_filterMap.mp hphoto
  simpa using h e he photo hasset

theorem leftFor_asset {e : ChangeEvent} (he : e ∈ leftFor records r) : e.asset = none := by
  unfold leftFor at he
  cases List.mem_append.mp he with
  | inl hlone =>
      split at hlone
      · rw [List.mem_singleton.mp hlone]
        rfl
      · simp at hlone
  | inr hwaits =>
      split at hwaits
      · rw [List.mem_singleton.mp hwaits]
        rfl
      · simp at hwaits

theorem emittedFor_recordName {e : ChangeEvent} {photo : PhotoAsset}
    (he : e ∈ emittedFor host records r) (hasset : e.asset = some photo) :
    photo.recordName = r.recordName := by
  unfold emittedFor at he
  split at he
  · obtain ⟨entry, -, rfl⟩ := List.mem_map.mp he
    exact emitPaired_recordName hasset
  · rw [(standalone_spec host r).1 e he] at hasset
    contradiction

theorem kids_perm (host : Host) (drain : DrainOrder) (pages : List (List Record))
    (hnames : (pages.flatten.map (·.recordName)).Nodup) (hmem : master ∈ pages.flatten)
    (hmaster : master.isMaster master.recordName = true) :
    (kids (changeEvents host drain pages) master.recordName).Perm
      (kids (emitPairedGroup host master (children pages.flatten master.recordName)
        (classifyChangeReason master)) master.recordName) := by
  have hperm := ((changeEvents_groups host drain pages hnames).filterMap (·.asset)).filter
    (fun photo => photo.recordName = master.recordName)
  have hevents : kids (pages.flatten.flatMap (fun r =>
      emittedFor host pages.flatten r ++ leftFor pages.flatten r)) master.recordName =
      kids (emitPairedGroup host master (children pages.flatten master.recordName)
        (classifyChangeReason master)) master.recordName := by
    generalize pages.flatten = records at hnames hmem ⊢
    have hothers : ∀ r : Record, r.recordName ≠ master.recordName →
        kids (emittedFor host records r ++ leftFor records r) master.recordName = [] := by
      intro r hne
      apply kids_eq_nil
      intro e he photo hasset
      cases List.mem_append.mp he with
      | inl hemitted => rwa [emittedFor_recordName hemitted hasset]
      | inr hleft =>
          rw [leftFor_asset hleft] at hasset
          contradiction
    have hself : kids (emittedFor host records master ++ leftFor records master)
        master.recordName = kids (emitPairedGroup host master
          (children records master.recordName) (classifyChangeReason master))
          master.recordName := by
      have hleft : kids (leftFor records master) master.recordName = [] := by
        apply kids_eq_nil
        intro e he photo hasset
        rw [leftFor_asset he] at hasset
        contradiction
      rw [kids_append, hleft, List.append_nil, emittedFor, if_pos hmaster]
    obtain ⟨before, after, hsplit⟩ := List.append_of_mem hmem
    have hapart := apart_of_nodup hnames hsplit
    rw [kids_flatMap, flatMap_single hsplit (fun r hr => hothers r (hapart r hr)), hself]
  rw [← hevents]
  exact hperm

theorem children_nonblank {child : Record} (h : child ∈ children records name) :
    isBlank child.recordName = false :=
  refersTo_nonblank (of_decide_eq_true (List.mem_filter.mp h).2)

theorem children_nodup (hnames : (records.map (·.recordName)).Nodup) (name : String) :
    ((children records name).map (·.recordName)).Nodup :=
  hnames.sublist (List.filter_sublist.map _)

/-- The pair is not malformed. -/
def IsWhole (host : Host) (master child : Record) : Prop :=
  (⟨child, some master⟩ : Delivery).isComplete host = true

instance (host : Host) (master child : Record) : Decidable (IsWhole host master child) :=
  inferInstanceAs (Decidable (_ = _))

/-- How the assets of a master are identified. -/
structure Identified (host : Host) (master : Record) (children : List Record)
    (photos : List PhotoAsset) : Prop where
  /-- At most one is recorded under the id of the master. -/
  atMostOne : photos.countP (fun photo => photo.stateRecordName = none) ≤ 1
  others : ∀ photo ∈ photos,
    photo.stateRecordName = none ∨ photo.stateRecordName = some photo.assetRecordName
  /-- One is, when no pair of the master is malformed. -/
  one : (∀ child ∈ children, IsWhole host master child) → children ≠ [] →
    photos.length = children.length ∧
      photos.countP (fun photo => photo.stateRecordName = none) = 1

theorem kids_pairs (host : Host) {master : Record} (hmaster : isBlank master.recordName = false)
    {children : List Record} (hblank : ∀ child ∈ children, isBlank child.recordName = false)
    (flag : Bool) :
    kids (children.map (fun child => emitPaired host master child
        (reconcileReasons (classifyChangeReason master) (classifyChangeReason child)) flag))
        master.recordName =
      (children.filter (IsWhole host master)).map (fun child =>
        { PhotoAsset.fromRecords master child with
          stateRecordName := if flag then some child.recordName else none }) := by
  induction children with
  | nil => rfl
  | cons child rest ih =>
      have hrest := ih (fun c hc => hblank c (List.mem_cons_of_mem _ hc))
      have hone := emitPaired_asset host flag hmaster (hblank child List.mem_cons_self)
      rw [kids, List.filter_filterMap] at hrest
      rw [kids, List.filter_filterMap, List.map_cons, List.filterMap_cons, hrest, hone]
      by_cases hwhole : IsWhole host master child
      · have hcomplete : (⟨child, some master⟩ : Delivery).isComplete host = true := hwhole
        simp [hcomplete, hwhole, PhotoAsset.fromRecords, Option.filter]
      · have hcomplete : ¬ (⟨child, some master⟩ : Delivery).isComplete host = true := hwhole
        simp [hcomplete, hwhole]

theorem kids_group (host : Host) (hmaster : isBlank master.recordName = false) {first : Record}
    {rest : List Record} (hblank : ∀ child ∈ first :: rest, isBlank child.recordName = false) :
    kids (emitPairedGroup host master (first :: rest) (classifyChangeReason master))
        master.recordName =
      (if IsWhole host master first then [PhotoAsset.fromRecords master first] else []) ++
        (rest.filter (IsWhole host master)).map (fun child =>
          { PhotoAsset.fromRecords master child with
            stateRecordName := some child.recordName }) := by
  have hfirst := @kids_pairs host master hmaster [first]
    (by simpa using hblank first List.mem_cons_self) false
  have hrest := kids_pairs host hmaster (fun c hc => hblank c (List.mem_cons_of_mem _ hc)) true
  rw [emitPairedGroup_cons, ← List.singleton_append, kids_append]
  rw [List.map_singleton] at hfirst
  rw [hfirst, hrest]
  by_cases hwhole : IsWhole host master first <;> simp [hwhole, PhotoAsset.fromRecords]

/-- The first asset of a master is recorded under its id, and the others under their own. -/
theorem identified_group (host : Host) (hmaster : isBlank master.recordName = false)
    {children : List Record} (hblank : ∀ child ∈ children, isBlank child.recordName = false) :
    Identified host master children
      (kids (emitPairedGroup host master children (classifyChangeReason master))
        master.recordName) := by
  cases children with
  | nil => exact ⟨by simp [emitPairedGroup, kids], by simp [emitPairedGroup, kids], by simp⟩
  | cons first rest =>
      rw [kids_group host hmaster hblank]
      have hown : ((rest.filter (IsWhole host master)).map (fun child =>
          { PhotoAsset.fromRecords master child with
            stateRecordName := some child.recordName })).countP
            (fun photo => photo.stateRecordName = none) = 0 := by
        rw [List.countP_map, List.countP_eq_zero]
        simp
      constructor
      · rw [List.countP_append, hown]
        split <;> simp [PhotoAsset.fromRecords]
      · intro photo hphoto
        cases List.mem_append.mp hphoto with
        | inl hfirst =>
            split at hfirst
            · rw [List.mem_singleton.mp hfirst]
              exact .inl rfl
            · simp at hfirst
        | inr hrest =>
            obtain ⟨child, -, rfl⟩ := List.mem_map.mp hrest
            exact .inr rfl
      · intro hwhole _
        have hfirst := hwhole first List.mem_cons_self
        have hfilter : rest.filter (IsWhole host master) = rest := by
          rw [List.filter_eq_self]
          intro child hchild
          simpa using hwhole child (List.mem_cons_of_mem _ hchild)
        rw [List.countP_append, hown, if_pos hfirst, hfilter]
        simp [PhotoAsset.fromRecords]

theorem Identified.perm {children : List Record} {photos photos' : List PhotoAsset}
    (h : Identified host master children photos) (hperm : photos'.Perm photos) :
    Identified host master children photos' where
  atMostOne := by
    rw [hperm.countP_eq]
    exact h.atMostOne
  others := fun photo hphoto => h.others photo (hperm.mem_iff.mp hphoto)
  one := fun hwhole hne => by
    rw [hperm.length_eq, hperm.countP_eq]
    exact h.one hwhole hne

/-! ## the theorem -/

/-- A half is reported once: by itself, or with its master, which is reported with each of its
assets. -/
def Accounted (host : Host) (records : List Record) (r : Record) : Prop :=
  if r.isMaster r.recordName then
    (facts host records r).length = max (children records r.recordName).length 1
  else
    (facts host records r).length = 1 ∨
      facts host records r = [] ∧ ∃ master ∈ records,
        master.isMaster master.recordName = true ∧ r.refersTo = some master.recordName ∧
          ((children records master.recordName).map (·.recordName)).count r.recordName = 1

theorem accounted (host : Host) (hnames : (records.map (·.recordName)).Nodup) (hmem : r ∈ records)
    (hhalf : r.isHalf) : Accounted host records r := by
  unfold Accounted
  split
  · next hmaster =>
      by_cases hchildren : children records r.recordName = []
      · simp [facts, hmaster, hchildren]
      · have hpos := List.length_pos_iff.mpr hchildren
        simp [facts, hmaster, hchildren]
        omega
  · next hmaster =>
      rw [Bool.not_eq_true] at hmaster
      cases hasset : r.refersTo with
      | none =>
          have hone := (standalone_spec host r).2 hhalf hmaster hasset
          simp [facts, hmaster, hasset, hone]
      | some name =>
          cases hany : records.any (Record.isMaster name) with
          | false => simp [facts, hmaster, hasset, hany]
          | true =>
              obtain ⟨master, hin, hfound⟩ := List.any_eq_true.mp hany
              have hname := isMaster_name hfound
              subst hname
              have hchild : r ∈ children records master.recordName :=
                List.mem_filter.mpr ⟨hmem, by simpa using hasset⟩
              have hcount := List.count_eq_one_of_mem
                (children_nodup hnames master.recordName) (List.mem_map_of_mem hchild)
              refine .inr ⟨by simp [facts, hmaster, hasset, hany], master, hin, hfound, rfl, hcount⟩

/-- **The order of a feed and its pages do not matter** when each record name occurs once: the
events are the same up to the state ids, they account for every half once, and at most one asset
of a master is recorded under its id, exactly one unless a pair of the master is malformed. -/
theorem events_of_any_order (host : Host) (drain drain' : DrainOrder)
    (pages pages' : List (List Record)) (hperm : pages.flatten.Perm pages'.flatten)
    (hnames : (pages.flatten.map (·.recordName)).Nodup) :
    ((changeEvents host drain pages).map ChangeEvent.fact).Perm
        ((changeEvents host drain' pages').map ChangeEvent.fact) ∧
      ((changeEvents host drain pages).map ChangeEvent.fact).Perm
        (pages.flatten.flatMap (facts host pages.flatten)) ∧
      (∀ r ∈ pages.flatten, r.isHalf → Accounted host pages.flatten r) ∧
      ∀ r ∈ pages.flatten, r.isMaster r.recordName = true →
        Identified host r (children pages.flatten r.recordName)
          (kids (changeEvents host drain pages) r.recordName) := by
  have hfacts (drain : DrainOrder) (pages : List (List Record))
      (hnames : (pages.flatten.map (·.recordName)).Nodup) :
      ((changeEvents host drain pages).map ChangeEvent.fact).Perm
        (pages.flatten.flatMap (facts host pages.flatten)) := by
    have hgroups := (changeEvents_groups host drain pages hnames).map ChangeEvent.fact
    rw [List.map_flatMap] at hgroups
    rwa [List.flatMap_congr (fun r _ => facts_eq host pages.flatten r)]
  have hnames' : (pages'.flatten.map (·.recordName)).Nodup := (hperm.map _).nodup_iff.mp hnames
  have hsame : (pages.flatten.flatMap (facts host pages.flatten)).Perm
      (pages'.flatten.flatMap (facts host pages'.flatten)) :=
    List.Perm.flatMap hperm (fun r _ => facts_perm host hperm r)
  refine ⟨((hfacts drain pages hnames).trans hsame).trans (hfacts drain' pages' hnames').symm,
    hfacts drain pages hnames, fun r hmem hhalf => accounted host hnames hmem hhalf,
    fun r hmem hmaster => ?_⟩
  exact (identified_group host (isMaster_nonblank hmaster)
    (fun child hchild => children_nonblank hchild)).perm
      (kids_perm host drain pages hnames hmem hmaster)

/-! ## two feeds -/

/-- Of the two assets of the master "m", the first one has no date. -/
def undatedA : Record :=
  ⟨⟨"a", "CPLAsset", .object [("masterRef",
    .object [("value", .object [("recordName", .string "m")])])]⟩, none⟩

def datedB : Record :=
  ⟨⟨"b", "CPLAsset", .object [("masterRef",
      .object [("value", .object [("recordName", .string "m")])]),
    ("assetDate", .object [("value", .number "0")])]⟩, none⟩

def datedC : Record :=
  ⟨⟨"c", "CPLAsset", .object [("masterRef",
      .object [("value", .object [("recordName", .string "m")])]),
    ("assetDate", .object [("value", .number "0")])]⟩, none⟩

def ofM : Record := ⟨⟨"m", "CPLMaster", .null⟩, none⟩

/-- The master between its assets, and on a page of its own before them. -/
theorem events_of_any_order_split :
    ((changeEvents plainHost inOrder [[datedB], [ofM, datedC]]).map ChangeEvent.fact).Perm
        ((changeEvents plainHost inOrder [[ofM], [datedC, datedB]]).map ChangeEvent.fact) ∧
      (kids (changeEvents plainHost inOrder [[datedB], [ofM, datedC]]) "m").countP
        (fun photo => photo.stateRecordName = none) = 1 := by
  have hperm : ([datedB] ++ [ofM, datedC]).Perm ([ofM, datedC] ++ [datedB]) :=
    List.perm_append_comm
  have hnames : ([datedB, ofM, datedC].map (·.recordName)).Nodup := by decide
  obtain ⟨hsame, -, -, hids⟩ := events_of_any_order plainHost inOrder inOrder
    [[datedB], [ofM, datedC]] [[ofM], [datedC, datedB]] hperm hnames
  have hone := (hids ofM (by simp) (by decide +kernel)).one
  exact ⟨hsame, (hone (by decide +kernel) (by decide +kernel)).2⟩

/-- A paired master none of whose assets is recorded under its id. -/
theorem master_id_unused :
    (([undatedA, datedB, ofM]).map (·.recordName)).Nodup ∧
      ofM.isMaster "m" = true ∧ (children [undatedA, datedB, ofM] "m").map (·.recordName) =
        ["a", "b"] ∧
      (kids (changeEvents plainHost inOrder [[undatedA, datedB, ofM]]) "m").map
        (fun photo => (photo.assetRecordName, photo.stateRecordName)) = [("b", some "b")] := by
  decide +kernel

end Kei.Changes
