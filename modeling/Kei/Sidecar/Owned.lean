import Kei.Sidecar
import Kei.Lib.Split
import Mathlib.Logic.Relation

/-!
# Kei.Sidecar.Owned

What a write leaves of a packet that other programs change too.

The list of fields in the packet is read back as it was written, so that what
is listed is what kei owns.  A write sets what it contains, removes what kei
owned and it does not contain, and leaves everything else alone.
-/

namespace Kei.Sidecar

/-! ## calls, one property at a time -/

namespace XmpCall

/-- What the call makes of its property. -/
def effect : XmpCall → Option XmpValue → Option XmpValue
  | set _ value, _ => some (.text value)
  | delete _, _ => none
  | append _ item, old => some (.array (items old ++ [item]))

theorem lookup_run (call : XmpCall) (packet : XmpMeta) (p : Property) :
    (call.run packet).lookup p =
      if call.property = p then call.effect (packet.lookup p) else packet.lookup p := by
  by_cases h : call.property = p
  · subst h
    cases call <;> simp [run, property, effect]
  · rw [if_neg h]
    cases call with
    | set q value => exact Finmap.lookup_insert_of_ne _ (Ne.symm h)
    | delete q => exact Finmap.lookup_erase_ne (Ne.symm h)
    | append q item => exact Finmap.lookup_insert_of_ne _ (Ne.symm h)

end XmpCall

/-- What calls make of a property. -/
def valueAfter (p : Property) (calls : List XmpCall) (old : Option XmpValue) : Option XmpValue :=
  calls.foldl (fun value call => if call.property = p then call.effect value else value) old

theorem lookup_runCalls (calls : List XmpCall) (packet : XmpMeta) (p : Property) :
    (runCalls packet calls).lookup p = valueAfter p calls (packet.lookup p) := by
  induction calls generalizing packet with
  | nil => rfl
  | cons call calls ih =>
      show (runCalls (call.run packet) calls).lookup p = _
      rw [ih, XmpCall.lookup_run]
      rfl

section valueAfter

variable {p : Property} {old : Option XmpValue}

@[simp] theorem valueAfter_nil : valueAfter p [] old = old := rfl

@[simp] theorem valueAfter_cons {call : XmpCall} {calls : List XmpCall} :
    valueAfter p (call :: calls) old =
      valueAfter p calls (if call.property = p then call.effect old else old) := rfl

@[simp] theorem valueAfter_append {calls calls' : List XmpCall} :
    valueAfter p (calls ++ calls') old = valueAfter p calls' (valueAfter p calls old) := by
  simp [valueAfter]

theorem valueAfter_of_ne {calls : List XmpCall} (h : ∀ call ∈ calls, call.property ≠ p) :
    valueAfter p calls old = old := by
  induction calls with
  | nil => rfl
  | cons call calls ih =>
      rw [valueAfter_cons, if_neg (h call (by simp))]
      exact ih fun c hc => h c (List.mem_cons_of_mem _ hc)

variable {value : Option α}

@[simp] theorem valueAfter_ifSome {calls : α → List XmpCall} :
    valueAfter p (ifSome value calls) old =
      value.elim old (fun a => valueAfter p (calls a) old) := by
  cases value <;> rfl

@[simp] theorem elim_const : value.elim old (fun _ => old) = old := by
  cases value <;> rfl

theorem elim_some {f : α → XmpValue} :
    value.elim old (fun a => some (f a)) = (value.map f).or old := by
  cases value <;> rfl

@[simp] theorem valueAfter_ifTrue {condition : Bool} {call : XmpCall} :
    valueAfter p (ifTrue condition call) old =
      if condition = true ∧ call.property = p then call.effect old else old := by
  cases condition <;> simp [ifTrue]

theorem valueAfter_items {items : List String} :
    valueAfter p (items.map (XmpCall.append p)) old =
      if items.isEmpty then old else some (.array (XmpCall.items old ++ items)) := by
  induction items generalizing old with
  | nil => rfl
  | cons item items ih =>
      rw [List.map_cons, valueAfter_cons, ih]
      cases items <;> simp [XmpCall.property, XmpCall.effect, XmpCall.items]

@[simp] theorem valueAfter_replaceArray {property : Property} {items : List String} :
    valueAfter p (replaceArray property items) old =
      if property = p then (if items.isEmpty then old else some (.array items)) else old := by
  unfold replaceArray
  by_cases hp : property = p
  · subst hp
    cases items with
    | nil => simp
    | cons item items =>
        rw [if_neg (by simp), valueAfter_cons, valueAfter_items]
        simp [XmpCall.property, XmpCall.effect, XmpCall.items]
  · rw [if_neg hp]
    refine valueAfter_of_ne fun call hcall => ?_
    split at hcall
    · cases hcall
    · rcases List.mem_cons.mp hcall with rfl | hcall
      · exact hp
      · obtain ⟨item, -, rfl⟩ := List.mem_map.mp hcall
        exact hp

end valueAfter

/-! ## the values of a write -/

/-- The capture time as it is written. -/
def captureTime (write : MetadataWrite F) : Option XmpValue :=
  write.datetime.map (fun dt =>
    .text (exifDatetimeToIso dt ++ write.offsetTimeOriginal.getD ""))

/-- The value that a write has for a field. -/
def written (fmt : FloatFormat F) (write : MetadataWrite F) : ManagedXmpField → Option XmpValue
  | .createDate | .modifyDate | .dateTimeOriginal | .dateCreated => captureTime write
  | .offsetTimeOriginal => write.offsetTimeOriginal.map .text
  | .gpsDateTime => write.gpsDatetime.map .text
  | .gpsSpeed => write.gpsSpeed.map (fun speed => .text speed.encode)
  | .gpsSpeedRef => write.gpsSpeedRef.map .text
  | .gpsHPositioningError => write.gpsHPositioningError.map (fun error => .text error.encode)
  | .rating => write.rating.map (fun r => .text (toString (min r.toNat 5)))
  | .gpsLatitude => write.gps.map (fun gps => .text (fmt.encodeGps gps.latitude 'N' 'S'))
  | .gpsLongitude => write.gps.map (fun gps => .text (fmt.encodeGps gps.longitude 'E' 'W'))
  | .gpsAltitude => (write.gps.bind (·.altitude)).map (fun alt => .text (fmt.encodeAltitude alt))
  | .gpsAltitudeRef => (write.gps.bind (·.altitude)).map (fun alt =>
      .text (if fmt.isNegative alt then "1" else "0"))
  | .title => write.title.map .text
  | .description => write.description.map .text
  | .keywords => if write.keywords.isEmpty then none else some (.array write.keywords)
  | .people => if write.people.isEmpty then none else some (.array write.people)
  | .hidden => if write.isHidden then some (.text "True") else none
  | .archived => if write.isArchived then some (.text "True") else none
  | .mediaSubtype => write.mediaSubtype.map .text
  | .burstId => write.burstId.map .text

theorem written_isSome (fmt : FloatFormat F) (write : MetadataWrite F) (field : ManagedXmpField) :
    (written fmt write field).isSome = field.isPresent write := by
  cases field <;> simp [written, captureTime, ManagedXmpField.isPresent]
  case gpsAltitude | gpsAltitudeRef => cases write.gps <;> simp
  case keywords => cases write.keywords <;> rfl
  case people => cases write.people <;> rfl
  case hidden => cases write.isHidden <;> rfl
  case archived => cases write.isArchived <;> rfl

theorem lookup_applyToXmp (fmt : FloatFormat F) (packet : XmpMeta) {write : MetadataWrite F}
    (hkeeps : write.clearDatetimeOffsets = false) (field : ManagedXmpField) :
    (applyToXmp fmt packet write).lookup field.property =
      (written fmt write field).or (packet.lookup field.property) := by
  unfold applyToXmp
  rw [lookup_runCalls]
  cases field <;> simp [xmpCalls, hkeeps, ManagedXmpField.property, XmpCall.property,
    XmpCall.effect, elim_some, written, captureTime]
  case createDate | modifyDate | dateTimeOriginal | dateCreated =>
    cases write.offsetTimeOriginal <;> simp
  case gpsAltitude | gpsAltitudeRef => cases write.gps <;> rfl
  case keywords => cases write.keywords <;> rfl
  case people => cases write.people <;> rfl
  case hidden => cases write.isHidden <;> rfl
  case archived => cases write.isArchived <;> rfl

/-- The calls are on managed fields. -/
def OnFields (calls : List XmpCall) : Prop :=
  ∀ call ∈ calls, ∃ field : ManagedXmpField, field.property = call.property

namespace OnFields

theorem nil : OnFields [] := nofun

theorem cons {call : XmpCall} {calls : List XmpCall} (field : ManagedXmpField)
    (h : field.property = call.property) (hcalls : OnFields calls) : OnFields (call :: calls) :=
  List.forall_mem_cons.mpr ⟨⟨field, h⟩, hcalls⟩

theorem append {calls calls' : List XmpCall} (h : OnFields calls) (h' : OnFields calls') :
    OnFields (calls ++ calls') := List.forall_mem_append.mpr ⟨h, h'⟩

theorem ifSome {value : Option α} {calls : α → List XmpCall} (h : ∀ a, OnFields (calls a)) :
    OnFields (ifSome value calls) := by
  cases value with
  | none => exact nil
  | some a => exact h a

theorem ifTrue {condition : Bool} {call : XmpCall} (field : ManagedXmpField)
    (h : field.property = call.property) : OnFields (ifTrue condition call) := by
  cases condition with
  | false => exact nil
  | true => exact cons field h nil

theorem replaceArray {items : List String} (field : ManagedXmpField) :
    OnFields (replaceArray field.property items) := by
  unfold Sidecar.replaceArray
  split
  · exact nil
  · refine cons field rfl fun call hcall => ?_
    obtain ⟨item, -, rfl⟩ := List.mem_map.mp hcall
    exact ⟨field, rfl⟩

end OnFields

theorem onFields_xmpCalls (fmt : FloatFormat F) {write : MetadataWrite F}
    (hkeeps : write.clearDatetimeOffsets = false) : OnFields (xmpCalls fmt write) := by
  unfold xmpCalls
  rw [hkeeps]
  repeat' apply OnFields.append
  · exact OnFields.nil
  · exact .ifSome fun _ => .cons .createDate rfl (.cons .modifyDate rfl
      (.cons .dateTimeOriginal rfl (.cons .dateCreated rfl .nil)))
  · exact .ifSome fun _ => .cons .offsetTimeOriginal rfl .nil
  · exact .ifSome fun _ => .cons .gpsDateTime rfl .nil
  · exact .ifSome fun _ => .cons .gpsSpeed rfl .nil
  · exact .ifSome fun _ => .cons .gpsSpeedRef rfl .nil
  · exact .ifSome fun _ => .cons .gpsHPositioningError rfl .nil
  · exact .ifSome fun _ => .cons .rating rfl .nil
  · exact .ifSome fun _ => .append (.cons .gpsLatitude rfl (.cons .gpsLongitude rfl .nil))
      (.ifSome fun _ => .cons .gpsAltitude rfl (.cons .gpsAltitudeRef rfl .nil))
  · exact .ifSome fun _ => .cons .title rfl .nil
  · exact .ifSome fun _ => .cons .description rfl .nil
  · exact .replaceArray .keywords
  · exact .replaceArray .people
  · exact .ifTrue .hidden rfl
  · exact .ifTrue .archived rfl
  · exact .ifSome fun _ => .cons .mediaSubtype rfl .nil
  · exact .ifSome fun _ => .cons .burstId rfl .nil

theorem lookup_applyToXmp_of_ne (fmt : FloatFormat F) (packet : XmpMeta) {write : MetadataWrite F}
    (hkeeps : write.clearDatetimeOffsets = false) {p : Property}
    (hp : ∀ field : ManagedXmpField, field.property ≠ p) :
    (applyToXmp fmt packet write).lookup p = packet.lookup p := by
  unfold applyToXmp
  rw [lookup_runCalls]
  refine valueAfter_of_ne fun call hcall heq => ?_
  obtain ⟨field, hfield⟩ := onFields_xmpCalls fmt hkeeps call hcall
  exact hp field (hfield.trans heq)

/-! ## the list of fields -/

theorem mem_managedXmpFields (field : ManagedXmpField) : field ∈ managedXmpFields := by
  cases field <;> decide

theorem token_inj {field field' : ManagedXmpField} (h : field.token = field'.token) :
    field = field' :=
  List.inj_on_of_nodup_map (by decide +kernel : (managedXmpFields.map (·.token)).Nodup)
    (mem_managedXmpFields field) (mem_managedXmpFields field') h

theorem property_inj {field field' : ManagedXmpField} (h : field.property = field'.property) :
    field = field' :=
  List.inj_on_of_nodup_map (by decide +kernel : (managedXmpFields.map (·.property)).Nodup)
    (mem_managedXmpFields field) (mem_managedXmpFields field') h

theorem property_ne_list (field : ManagedXmpField) : field.property ≠ keiManagedFields := by
  cases field <;> decide

/-- A token that can be listed. -/
def Listable (token : String) : Prop := token ≠ "" ∧ ',' ∉ token.toList

theorem listable_token (field : ManagedXmpField) : Listable field.token := by
  cases field <;> exact ⟨by decide, by decide⟩

theorem listable_of_listed {packet : XmpMeta} {token : String}
    (h : token ∈ listedTokens packet) : Listable token := by
  obtain ⟨hsplit, hne⟩ := List.mem_filter.mp h
  exact ⟨by simpa using hne, Str.not_mem_of_mem_split hsplit⟩

theorem split_intercalate {tokens : List String} (hne : tokens ≠ [])
    (h : ∀ token ∈ tokens, Listable token) :
    Str.split (",".intercalate tokens) ',' = tokens := by
  induction tokens with
  | nil => contradiction
  | cons token tokens ih =>
      cases tokens with
      | nil => rw [String.intercalate_singleton, Str.split_of_not_mem (h token (by simp)).2]
      | cons token' tokens =>
          have htoken := Str.split_of_not_mem (h token (by simp)).2
          have hrest := ih (by simp) fun t ht => h t (List.mem_cons_of_mem _ ht)
          have hcomma : "," = String.singleton ',' := by decide
          rw [String.intercalate_cons_cons, hcomma, Str.split_append, htoken, ← hcomma, hrest]
          rfl

/-- The packet lists the field as kei's own. -/
def listed (packet : XmpMeta) (field : ManagedXmpField) : Bool :=
  (listedTokens packet).contains field.token

theorem listedTokens_congr {packet packet' : XmpMeta}
    (h : packet.lookup keiManagedFields = packet'.lookup keiManagedFields) :
    listedTokens packet = listedTokens packet' := by
  unfold listedTokens propertyText
  rw [h]

theorem listedTokens_insert (packet : XmpMeta) {tokens : List String} (hne : tokens ≠ [])
    (h : ∀ token ∈ tokens, Listable token) :
    listedTokens (packet.insert keiManagedFields (.text (",".intercalate tokens))) = tokens := by
  unfold listedTokens propertyText
  rw [Finmap.lookup_insert]
  show (Str.split (",".intercalate tokens) ',').filter _ = tokens
  rw [split_intercalate hne h]
  exact List.filter_eq_self.mpr fun token htoken => decide_eq_true (h token htoken).1

theorem listedTokens_erase (packet : XmpMeta) :
    listedTokens (packet.erase keiManagedFields) = [] := by
  unfold listedTokens propertyText
  rw [Finmap.lookup_erase]
  decide

/-! ## one write -/

theorem lookup_foldl_erase (gone : ManagedXmpField → Bool) (fields : List ManagedXmpField)
    (packet : XmpMeta) (p : Property) :
    (fields.foldl (fun packet field =>
      if gone field then packet.erase field.property else packet) packet).lookup p =
      if ∃ field ∈ fields, gone field = true ∧ field.property = p then none
      else packet.lookup p := by
  induction fields generalizing packet with
  | nil => simp
  | cons field fields ih =>
      rw [List.foldl_cons, ih]
      by_cases hrest : ∃ f ∈ fields, gone f = true ∧ f.property = p
      · obtain ⟨f, hf, hgone⟩ := hrest
        rw [if_pos ⟨f, hf, hgone⟩, if_pos ⟨f, List.mem_cons_of_mem _ hf, hgone⟩]
      · rw [if_neg hrest]
        by_cases hfirst : gone field = true ∧ field.property = p
        · rw [if_pos hfirst.1, if_pos ⟨field, List.mem_cons_self, hfirst⟩, ← hfirst.2]
          exact Finmap.lookup_erase _ _
        · have hnone : ¬ ∃ f ∈ field :: fields, gone f = true ∧ f.property = p := by
            rintro ⟨f, hf, hgone⟩
            rcases List.mem_cons.mp hf with rfl | hf
            · exact hfirst hgone
            · exact hrest ⟨f, hf, hgone⟩
          rw [if_neg hnone]
          by_cases hgone : gone field = true
          · rw [if_pos hgone]
            exact Finmap.lookup_erase_ne fun h => hfirst ⟨hgone, h.symm⟩
          · rw [if_neg hgone]

section write

variable (fmt : FloatFormat F) (packet : XmpMeta) (write : SidecarWrite F)

/-- kei removes the field: it owned it, and the write neither contains nor preserves it. -/
def dropped (field : ManagedXmpField) : Bool :=
  listed packet field && !field.isPresent write.toMetadataWrite &&
    !field.preserved write.toMetadataWrite

/-- The list is written last, and every other property is left by the steps before. -/
theorem lookup_applyToOwnedSidecar {p : Property} (hp : p ≠ keiManagedFields) :
    (applyToOwnedSidecar fmt packet write.toMetadataWrite).lookup p =
      (applyToXmp fmt (managedXmpFields.foldl (fun packet' field =>
        if dropped packet write field then packet'.erase field.property else packet') packet)
        write.toMetadataWrite).lookup p := by
  unfold applyToOwnedSidecar
  dsimp only
  split
  · exact Finmap.lookup_erase_ne hp
  · exact Finmap.lookup_insert_of_ne _ hp

theorem lookup_field_applyToOwnedSidecar (field : ManagedXmpField) :
    (applyToOwnedSidecar fmt packet write.toMetadataWrite).lookup field.property =
      (written fmt write.toMetadataWrite field).or
        (if dropped packet write field then none else packet.lookup field.property) := by
  rw [lookup_applyToOwnedSidecar _ _ _ (property_ne_list field),
    lookup_applyToXmp _ _ write.keepsOffsets, lookup_foldl_erase]
  congr 1
  refine if_congr ⟨?_, fun h => ⟨field, mem_managedXmpFields field, h, rfl⟩⟩ rfl rfl
  rintro ⟨f, -, hgone, hf⟩
  rwa [← property_inj hf]

theorem lookup_outside_applyToOwnedSidecar {p : Property}
    (hp : ∀ field : ManagedXmpField, field.property ≠ p) (hlist : p ≠ keiManagedFields) :
    (applyToOwnedSidecar fmt packet write.toMetadataWrite).lookup p = packet.lookup p := by
  rw [lookup_applyToOwnedSidecar _ _ _ hlist, lookup_applyToXmp_of_ne _ _ write.keepsOffsets hp,
    lookup_foldl_erase, if_neg]
  rintro ⟨field, -, -, hfield⟩
  exact hp field hfield

/-- What is listed next: the tokens that stay, and those of the fields in the write. -/
def nextTokens : List String :=
  (listedTokens packet).filter (fun token =>
    !managedXmpFields.any (fun field =>
      field.token = token && !field.preserved write.toMetadataWrite)) ++
  (managedXmpFields.filter (fun field => field.isPresent write.toMetadataWrite)).map (·.token)

theorem listable_nextTokens {token : String} (h : token ∈ nextTokens packet write) :
    Listable token := by
  rcases List.mem_append.mp h with h | h
  · exact listable_of_listed (List.mem_of_mem_filter h)
  · obtain ⟨field, -, rfl⟩ := List.mem_map.mp h
    exact listable_token field

theorem listedTokens_applyToOwnedSidecar :
    listedTokens (applyToOwnedSidecar fmt packet write.toMetadataWrite) =
      nextTokens packet write := by
  unfold applyToOwnedSidecar
  dsimp only
  split
  · next hempty =>
      rw [listedTokens_erase]
      exact (List.isEmpty_iff.mp hempty).symm
  · next hne =>
      exact listedTokens_insert _ (fun h => hne (List.isEmpty_iff.mpr h)) fun token =>
        listable_nextTokens packet write

/-- The list of a packet after a write: the fields of the write, and those that it preserves. -/
theorem listed_applyToOwnedSidecar (field : ManagedXmpField) :
    listed (applyToOwnedSidecar fmt packet write.toMetadataWrite) field =
      (field.isPresent write.toMetadataWrite ||
        (listed packet field && field.preserved write.toMetadataWrite)) := by
  unfold listed
  rw [listedTokens_applyToOwnedSidecar, nextTokens, List.contains_append, Bool.or_comm]
  congr 1
  · rw [Bool.eq_iff_iff, List.contains_iff_mem, List.mem_map]
    constructor
    · rintro ⟨f, hf, htoken⟩
      rw [← token_inj htoken]
      exact (List.mem_filter.mp hf).2
    · exact fun h => ⟨field, List.mem_filter.mpr ⟨mem_managedXmpFields field, h⟩, rfl⟩
  · rw [Bool.eq_iff_iff, List.contains_iff_mem, List.mem_filter, Bool.and_eq_true,
      List.contains_iff_mem]
    refine and_congr_right fun _ => ?_
    rw [Bool.not_eq_true', List.any_eq_false]
    constructor
    · intro h
      simpa using h field (mem_managedXmpFields field)
    · intro h f _ hf
      rw [Bool.and_eq_true, decide_eq_true_eq] at hf
      rw [token_inj hf.1, h] at hf
      exact absurd hf.2 (by decide)

end write

/-! ## runs of writes -/

/-- A packet, with what kei owns in it and what kei ever wrote to it. -/
structure Ledger where
  packet : XmpMeta
  owned : ManagedXmpField → Bool
  wrote : ManagedXmpField → Bool

namespace Ledger

/-- What kei wrote before is known from the list. -/
def start (packet : XmpMeta) : Ledger where
  packet := packet
  owned := listed packet
  wrote := listed packet

/-- kei owns what it wrote, until a write neither contains nor preserves it. -/
def write (fmt : FloatFormat F) (s : Ledger) (write : SidecarWrite F) : Ledger where
  packet := applyToOwnedSidecar fmt s.packet write.toMetadataWrite
  owned field := field.isPresent write.toMetadataWrite ||
    (s.owned field && field.preserved write.toMetadataWrite)
  wrote field := s.wrote field || field.isPresent write.toMetadataWrite

end Ledger

/-- A write of kei, or a change by other programs to what kei does not list. -/
inductive Ledger.Step (fmt : FloatFormat F) : Ledger → Ledger → Prop
  | write (s : Ledger) (w : SidecarWrite F) : Step fmt s (s.write fmt w)
  | others (s : Ledger) (packet : XmpMeta)
      (hlist : packet.lookup keiManagedFields = s.packet.lookup keiManagedFields)
      (howned : ∀ field, listed s.packet field = true →
        packet.lookup field.property = s.packet.lookup field.property) :
      Step fmt s { s with packet := packet }

/-- The list in the packet is what kei owns, and kei owns only what it wrote. -/
structure Ledger.Sound (s : Ledger) : Prop where
  lists : ∀ field, listed s.packet field = s.owned field
  owns : ∀ field, s.owned field = true → s.wrote field = true

theorem Ledger.sound_start (packet : XmpMeta) : (Ledger.start packet).Sound where
  lists _ := rfl
  owns _ h := h

theorem Ledger.Sound.write (fmt : FloatFormat F) {s : Ledger} (hs : s.Sound)
    (w : SidecarWrite F) : (s.write fmt w).Sound where
  lists field := by
    rw [Ledger.write, listed_applyToOwnedSidecar, hs.lists]
  owns field h := by
    simp only [Ledger.write, Bool.or_eq_true, Bool.and_eq_true] at h ⊢
    exact h.elim .inr fun howned => .inl (hs.owns field howned.1)

theorem Ledger.Step.sound {fmt : FloatFormat F} {s s' : Ledger} (hstep : Step fmt s s')
    (hs : s.Sound) : s'.Sound := by
  cases hstep with
  | write w => exact hs.write fmt w
  | others packet hlist _ =>
      refine ⟨fun field => ?_, hs.owns⟩
      rw [listed, listedTokens_congr hlist]
      exact hs.lists field

theorem Ledger.sound_run {fmt : FloatFormat F} {packet : XmpMeta} {s : Ledger}
    (hrun : Relation.ReflTransGen (Step fmt) (start packet) s) : s.Sound := by
  induction hrun with
  | refl => exact sound_start packet
  | tail _ hstep ih => exact hstep.sound ih

/-- What a write leaves: others' properties as they were, the values of the write, and of
what kei owned only what the write preserves. -/
structure Ledger.Left (fmt : FloatFormat F) (s s' : Ledger) (w : MetadataWrite F) : Prop where
  outside : ∀ p, (∀ field : ManagedXmpField, field.property ≠ p) → p ≠ keiManagedFields →
    s'.packet.lookup p = s.packet.lookup p
  neverWritten : ∀ field, s.wrote field = false → field.isPresent w = false →
    s'.packet.lookup field.property = s.packet.lookup field.property
  contained : ∀ field, field.isPresent w = true →
    s'.packet.lookup field.property = written fmt w field
  gone : ∀ field, s.owned field = true → field.isPresent w = false →
    (w.preserveSourceGps && field.isSourceGps) = false →
    s'.packet.lookup field.property = none
  preserved : ∀ field, s.owned field = true → field.isPresent w = false →
    (w.preserveSourceGps && field.isSourceGps) = true →
    s'.packet.lookup field.property = s.packet.lookup field.property
  lists : ∀ field, listed s'.packet field = s'.owned field

/-- After each write of every run, a sidecar holds what kei owns in it and what others put
there. -/
theorem Ledger.left_of_run (fmt : FloatFormat F) {packet : XmpMeta} {s : Ledger}
    (hrun : Relation.ReflTransGen (Step fmt) (start packet) s) (w : SidecarWrite F) :
    Left fmt s (s.write fmt w) w.toMetadataWrite := by
  have hs := sound_run hrun
  have hvalue := lookup_field_applyToOwnedSidecar fmt s.packet w
  have habsent : ∀ field : ManagedXmpField, field.isPresent w.toMetadataWrite = false →
      written fmt w.toMetadataWrite field = none := fun field h =>
    Option.isNone_iff_eq_none.mp (by rw [← Option.not_isSome, written_isSome, h]; rfl)
  constructor
  case outside => exact fun p hp hlist => lookup_outside_applyToOwnedSidecar fmt s.packet w hp hlist
  case neverWritten =>
    intro field hwrote hpresent
    have howned : listed s.packet field = false := by
      rw [hs.lists]
      exact Bool.eq_false_iff.mpr fun h => by rw [hs.owns field h] at hwrote; contradiction
    show (applyToOwnedSidecar fmt s.packet w.toMetadataWrite).lookup _ = _
    rw [hvalue, habsent field hpresent, dropped, howned]
    rfl
  case contained =>
    intro field hpresent
    have hsome : (written fmt w.toMetadataWrite field).isSome := by
      rw [written_isSome, hpresent]
    obtain ⟨value, hwritten⟩ := Option.isSome_iff_exists.mp hsome
    show (applyToOwnedSidecar fmt s.packet w.toMetadataWrite).lookup _ = _
    rw [hvalue, hwritten]
    rfl
  case gone =>
    intro field howned hpresent hpreserved
    have hdropped : dropped s.packet w field = true := by
      rw [dropped, hs.lists, howned, hpresent, ManagedXmpField.preserved, hpreserved]
      rfl
    show (applyToOwnedSidecar fmt s.packet w.toMetadataWrite).lookup _ = _
    rw [hvalue, habsent field hpresent, hdropped]
    rfl
  case preserved =>
    intro field _ hpresent hpreserved
    have hdropped : dropped s.packet w field = false := by
      rw [dropped, ManagedXmpField.preserved, hpreserved]
      simp
    show (applyToOwnedSidecar fmt s.packet w.toMetadataWrite).lookup _ = _
    rw [hvalue, habsent field hpresent, hdropped]
    rfl
  case lists => exact (hs.write fmt w).lists

/-- Coordinates in whole degrees. -/
def wholeDegrees : FloatFormat Int where
  encodeGps degrees pos neg :=
    toString degrees.natAbs ++ ",0.0000" ++ String.singleton (if 0 ≤ degrees then pos else neg)
  encodeAltitude alt := toString alt.natAbs ++ "/1"
  isNegative alt := alt < 0

def titlePayload (title : Option String) : MetadataPayload Int where
  timezoneOffset := some 7200
  rating := none
  latitude := none
  longitude := none
  altitude := none
  title := title
  description := none
  keywords := []
  people := []
  isHidden := false
  isArchived := false
  mediaSubtype := none
  burstId := none

def titleWrite (title : Option String) : SidecarWrite Int :=
  planSidecarWrite (some ⟨none, none, none, none⟩) (titlePayload title) "2024:05:01 10:00:00"

/-- kei wrote a title, and another program a rating. -/
def ratedLedger : Ledger :=
  let titled := (Ledger.start ∅).write wholeDegrees (titleWrite (some "Lake"))
  { titled with packet := titled.packet.insert ManagedXmpField.rating.property (.text "3") }

/-- The write without a title removes it, and leaves the rating of the other program. -/
theorem ratedLedger_left :
    Ledger.Left wholeDegrees ratedLedger (ratedLedger.write wholeDegrees (titleWrite none))
      (titleWrite none).toMetadataWrite := by
  refine @Ledger.left_of_run _ wholeDegrees ∅ _ (.tail (.single (.write _ _))
    (.others _ _ ?_ ?_)) (titleWrite none)
  · exact Finmap.lookup_insert_of_ne _ (property_ne_list .rating).symm
  · intro field howned
    refine Finmap.lookup_insert_of_ne _ fun h => ?_
    rw [property_inj h, ((Ledger.sound_start ∅).write _ _).lists] at howned
    exact absurd howned (by decide +kernel)

end Kei.Sidecar
