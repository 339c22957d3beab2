import Kei.Lib.Contract
import Kei.PhotoStream.Coverage
import Mathlib.Data.Finset.Card
import Mathlib.Data.List.Basic

/-!
# Kei.PhotoStream.Probes

The requests of one fetcher, with any answers to its calls.

`Walk` says of the pages of a fetcher that each was asked for where the ones
before it end, before the end of the range, and while fewer than
`maxEmptyPageProbes` quiet pages came last.  A page that is not quiet puts a
new name among the records that a range without count has emitted, so the
number of requests is bounded by the number of names (`Underway`); and a fetcher
that reports the proven end has come to the end of its range, or to as many
quiet pages in a row.
-/

namespace Kei.PhotoStream

open Proc

/-! ## the pages of a trace -/

/-- The consumer is gone. -/
def Left (t : Trace Op Resp) : Prop :=
  ⟨.isClosed, true⟩ ∈ t ∨ ∃ item, ⟨.send item, false⟩ ∈ t

theorem siblings_records (records : List Record) : (siblings records).map (·.2) = records := by
  have hcomp : ((fun e : FullAssetStateId × Record => e.2) ∘ fun entry : Record × Nat =>
      ((if 1 < records.length && 0 < entry.2 then FullAssetStateId.asset else .master), entry.1)) =
      Prod.fst := rfl
  rw [siblings, List.map_map, hcomp, List.zipIdx_map_fst]

theorem mem_siblings {records : List Record} {e : FullAssetStateId × Record}
    (h : e ∈ siblings records) : e.2 ∈ records := by
  rw [← siblings_records records]
  exact List.mem_map_of_mem h

/-- The answer to one request. -/
structure Page where
  offset : Nat
  records : List Record
  /-- How many of its assets were sent. -/
  emitted : Nat

namespace Page

def quiet (page : Page) : Bool := page.records.isEmpty || page.emitted = 0

def masters (page : Page) : Nat := (pageMastersOf page.records).length

/-- How far the offset goes on. -/
def advance (pageSize : Nat) (page : Page) : Nat :=
  if page.records = [] then pageSize
  else if pageMastersOf page.records = [] then max (pageAssetsOf page.records).length 1
  else page.masters

/-- How many ranks the request is for: those of a page, and of the masters that are on it. -/
def span (pageSize : Nat) (page : Page) : Nat := max pageSize page.masters

end Page

/-- The pages after one more event, the last page first. -/
def nextPages (pages : List Page) : Event Op Resp → List Page
  | ⟨.post offset, reply⟩ => ⟨offset, receivedOf ⟨.post offset, reply⟩, 0⟩ :: pages
  | ⟨.send (.asset _ _ _), true⟩ =>
      match pages with
      | [] => []
      | page :: earlier => { page with emitted := page.emitted + 1 } :: earlier
  | _ => pages

/-- The pages of a trace, the last one first. -/
def pagesOf (t : FTrace) : List Page := t.foldl nextPages []

/-- How many requests were made. -/
def requests (t : FTrace) : Nat :=
  t.countP (fun e => match e.op with | .post _ => true | _ => false)

/-- The names of the asset records that were served. -/
def servedNames (t : FTrace) : List String :=
  ((received t).filter (fun rec => rec.recordType = "CPLAsset")).map (·.recordName)

/-- Where the pages end that were asked for from `start` on. -/
def reach (start pageSize : Nat) : List Page → Nat
  | [] => start
  | page :: earlier => reach start pageSize earlier + page.advance pageSize

/-- The number of quiet pages that came last. -/
def quietTail : List Page → Nat
  | [] => 0
  | page :: earlier => if page.quiet then quietTail earlier + 1 else 0

/-- The number of empty pages that came last. -/
def emptyTail : List Page → Nat
  | [] => 0
  | page :: earlier => if page.records = [] then emptyTail earlier + 1 else 0

/-- The number of pages that emitted an asset. -/
def loud (pages : List Page) : Nat := pages.countP (fun page => !page.quiet)

theorem pagesOf_snoc (t : FTrace) (e : Event Op Resp) :
    pagesOf (t ++ [e]) = nextPages (pagesOf t) e := by
  simp [pagesOf]

theorem servedNames_append (t t' : FTrace) :
    servedNames (t ++ t') = servedNames t ++ servedNames t' := by
  simp [servedNames, received_append]

/-- A call other than a request, which gives the consumer no asset. -/
def Aside (e : Event Op Resp) : Prop :=
  match e with
  | ⟨.post _, _⟩ => False
  | ⟨.send (.asset _ _ _), ok⟩ => ok = false
  | _ => True

variable {e : Event Op Resp}

theorem nextPages_aside (pages : List Page) (h : Aside e) : nextPages pages e = pages := by
  obtain ⟨op, r⟩ := e
  cases op with
  | send item =>
      cases item with
      | asset master asset stateId =>
          have hr : r = false := h
          subst hr
          rfl
      | error message => cases r <;> rfl
  | post offset => exact absurd h id
  | _ => rfl

theorem pagesOf_aside (t : FTrace) (h : Aside e) : pagesOf (t ++ [e]) = pagesOf t := by
  rw [pagesOf_snoc, nextPages_aside _ h]

theorem servedNames_other (t : FTrace) (h : ∀ offset, e.op ≠ .post offset) :
    servedNames (t ++ [e]) = servedNames t := by
  obtain ⟨op, r⟩ := e
  rw [servedNames_append]
  cases op with
  | post offset => exact absurd rfl (h offset)
  | _ => simp [servedNames, received, receivedOf]

theorem aside_op (h : Aside e) (offset : Nat) : e.op ≠ .post offset := by
  obtain ⟨op, r⟩ := e
  intro heq
  cases heq
  exact h

theorem requests_eq (t : FTrace) : requests t = (pagesOf t).length := by
  induction t using List.reverseRecOn with
  | nil => rfl
  | append_singleton t e ih =>
      rw [pagesOf_snoc, requests, List.countP_append, ← requests, ih]
      obtain ⟨op, r⟩ := e
      cases op with
      | post offset => simp [nextPages]
      | send item =>
          cases item with
          | asset master asset stateId =>
              cases r with
              | false => simp [nextPages]
              | true => cases h : pagesOf t <;> simp [nextPages]
          | error message => simp [nextPages]
      | _ => simp [nextPages]

/-! ## a walk over the range -/

/-- Every page was asked for where the earlier ones end, before the end of the range, and
before a run of quiet pages was over. -/
def Walk (range : FetcherRange) (pageSize : Nat) (pages : List Page) : Prop :=
  ∀ page earlier, page :: earlier <:+ pages →
    page.offset = reach range.start pageSize earlier ∧ page.offset < range.end ∧
      quietTail earlier < maxEmptyPageProbes

variable {range : FetcherRange} {pageSize : Nat} {page : Page} {earlier pages : List Page}

theorem walk_nil : Walk range pageSize [] := by
  intro page earlier h
  simp at h

theorem walk_cons : Walk range pageSize (page :: earlier) ↔
    (page.offset = reach range.start pageSize earlier ∧ page.offset < range.end ∧
      quietTail earlier < maxEmptyPageProbes) ∧ Walk range pageSize earlier := by
  constructor
  · intro h
    exact ⟨h page earlier (List.suffix_refl _), fun p e hs => h p e (hs.trans
      (List.suffix_cons page earlier))⟩
  · intro ⟨hpage, hwalk⟩ p e hs
    cases List.suffix_cons_iff.mp hs with
    | inl heq =>
        cases heq
        exact hpage
    | inr hs => exact hwalk p e hs

theorem Walk.emits (h : Walk range pageSize (page :: earlier)) (n : Nat) :
    Walk range pageSize ({ page with emitted := n } :: earlier) := by
  obtain ⟨hpage, hwalk⟩ := walk_cons.mp h
  exact walk_cons.mpr ⟨hpage, hwalk⟩

theorem Walk.suffix (h : Walk range pageSize pages) (hs : earlier <:+ pages) :
    Walk range pageSize earlier := fun p e hpe => h p e (hpe.trans hs)

theorem Walk.quietTail_le (h : Walk range pageSize pages) :
    quietTail pages ≤ maxEmptyPageProbes := by
  cases pages with
  | nil => simp [quietTail]
  | cons page earlier =>
      have hbefore := (walk_cons.mp h).1.2.2
      unfold quietTail
      split <;> omega

/-- Fewer than `maxEmptyPageProbes` quiet pages come between two that emit. -/
theorem Walk.length_le (h : Walk range pageSize pages) :
    pages.length ≤ maxEmptyPageProbes * loud pages + quietTail pages := by
  induction pages with
  | nil => simp
  | cons page earlier ih =>
      obtain ⟨⟨-, -, hbefore⟩, hwalk⟩ := walk_cons.mp h
      have hlen := ih hwalk
      cases hquiet : page.quiet with
      | true => simp [loud, quietTail, hquiet] at hlen ⊢; omega
      | false =>
          have hmul : maxEmptyPageProbes * (loud earlier + 1) =
              maxEmptyPageProbes * loud earlier + maxEmptyPageProbes := Nat.mul_succ _ _
          simp [loud, quietTail, hquiet] at hlen hmul ⊢
          omega

theorem advance_pos (hpage : 0 < pageSize) (page : Page) : 0 < page.advance pageSize := by
  unfold Page.advance
  split
  · exact hpage
  · split
    · omega
    · next hmasters => exact List.length_pos_iff.mpr hmasters

theorem le_reach (start : Nat) (hpage : 0 < pageSize) (pages : List Page) :
    start + pages.length ≤ reach start pageSize pages := by
  induction pages with
  | nil => simp [reach]
  | cons page earlier ih =>
      have hadvance := advance_pos hpage page
      simp only [reach, List.length_cons]
      omega

theorem Walk.length_le_end (h : Walk range pageSize pages) (hpage : 0 < pageSize) :
    pages.length ≤ range.end - range.start := by
  cases pages with
  | nil => simp
  | cons page earlier =>
      obtain ⟨⟨hoffset, hend, -⟩, -⟩ := walk_cons.mp h
      have hreach := le_reach range.start hpage earlier
      simp only [List.length_cons]
      omega

/-! ## within a page -/

/-- What the requests of a fetcher keep to. -/
structure Underway (range : FetcherRange) (pageSize : Nat) (t : FTrace) : Prop where
  walk : Walk range pageSize (pagesOf t)
  fresh : range.role ≠ .data → loud (pagesOf t) ≤ (servedNames t).toFinset.card

/-- A request failed. -/
def Failed (t : FTrace) : Prop := ∃ offset message, ⟨.post offset, .error message⟩ ∈ t

/-- The fetcher keeps to its walk; it stops when the consumer is gone, when a request failed,
or after as many requests as it has fuel for. -/
def probing (range : FetcherRange) (pageSize fuel : Nat) : Contract Op Resp where
  rely _ _ := True
  keeps := Underway range pageSize
  stops t := Left t ∨ Failed t ∨ fuel ≤ requests t

/-- The state while a page is gone through. -/
structure Amid (range : FetcherRange) (pageSize : Nat) (page : Page) (earlier : List Page)
    (names : List String) (offset : Nat) (t : FTrace) (st : FetchState) : Prop where
  pages : pagesOf t = { page with emitted := st.pageEmitted } :: earlier
  walk : Walk range pageSize (page :: earlier)
  served : servedNames t = names
  waiting : ∀ e ∈ st.pendingAssets, e.2.recordName ∈ names
  known : ∀ name ∈ st.emittedAssetRecords, name ∈ names
  nodup : range.role ≠ .data → st.emittedAssetRecords.Nodup
  fresh : range.role ≠ .data → loud (pagesOf t) ≤ st.emittedAssetRecords.length
  probes : st.consecutiveEmptyPages = quietTail earlier
  rank : st.offset = offset
  going : st.stoppedForLimit = false
  limited : st.limitReached = true → range.limit.isSome = true

variable {names : List String} {offset fuel : Nat} {host : Host} {behavior : FetcherBehavior}
  {t : FTrace} {st : FetchState}

theorem card_known (hnodup : st.emittedAssetRecords.Nodup)
    (hknown : ∀ name ∈ st.emittedAssetRecords, name ∈ names) :
    st.emittedAssetRecords.length ≤ names.toFinset.card := by
  rw [← List.toFinset_card_of_nodup hnodup]
  exact Finset.card_le_card (fun name hname => by simpa using hknown name (by simpa using hname))

theorem Amid.underway (h : Amid range pageSize page earlier names offset t st) :
    Underway range pageSize t where
  walk := by
    rw [h.pages]
    exact h.walk.emits _
  fresh := fun hrole => by
    have hcard := card_known (h.nodup hrole) h.known
    have hfresh := h.fresh hrole
    rw [h.served]
    omega

theorem Amid.aside (h : Amid range pageSize page earlier names offset t st) (he : Aside e) :
    Amid range pageSize page earlier names offset (t ++ [e]) st := by
  have hpages := pagesOf_aside t he
  have hserved := servedNames_other t (aside_op he)
  exact { h with
    pages := hpages.trans h.pages,
    served := hserved.trans h.served,
    fresh := fun hrole => by
      rw [hpages]
      exact h.fresh hrole }

theorem Amid.send (h : Amid range pageSize page earlier names offset t st)
    (hroom : range.role ≠ .data → loud (pagesOf t) < st.emittedAssetRecords.length)
    (master asset : Record) (stateId : FullAssetStateId) :
    Amid range pageSize page earlier names offset
      (t ++ [sendEvent (.asset master asset stateId) true])
      { st with totalSent := st.totalSent + 1, pageEmitted := st.pageEmitted + 1 } := by
  have hpages : pagesOf (t ++ [sendEvent (.asset master asset stateId) true]) =
      { page with emitted := st.pageEmitted + 1 } :: earlier := by
    rw [pagesOf_snoc, h.pages]
    rfl
  have hserved := servedNames_other (e := sendEvent (.asset master asset stateId) true) t
    (by simp [sendEvent])
  have hloud : loud ({ page with emitted := st.pageEmitted + 1 } :: earlier) ≤
      loud ({ page with emitted := st.pageEmitted } :: earlier) + 1 := by
    simp only [loud, List.countP_cons]
    split <;> omega
  exact { h with
    pages := hpages,
    served := hserved.trans h.served,
    fresh := fun hrole => by
      have := hroom hrole
      rw [h.pages] at this
      rw [hpages]
      show _ ≤ st.emittedAssetRecords.length
      omega }

theorem Amid.note (h : Amid range pageSize page earlier names offset t st) {name : String}
    (hname : name ∈ names) (hfresh : name ∉ st.emittedAssetRecords) :
    Amid range pageSize page earlier names offset t
      { st with emittedAssetRecords := st.emittedAssetRecords ++ [name] } where
  pages := h.pages
  walk := h.walk
  served := h.served
  waiting := h.waiting
  known := by
    intro n hn
    cases List.mem_append.mp hn with
    | inl hold => exact h.known n hold
    | inr hnew => rwa [List.mem_singleton.mp hnew]
  nodup := fun hrole => by
    have hdisjoint : ∀ n ∈ st.emittedAssetRecords, n ≠ name := by
      intro n hn heq
      exact hfresh (heq ▸ hn)
    simpa [List.nodup_append, h.nodup hrole] using hdisjoint
  fresh := fun hrole => by
    have := h.fresh hrole
    simp only [List.length_append]
    omega
  probes := h.probes
  rank := h.rank
  going := h.going
  limited := h.limited

theorem shouldEmitAssetRecord_probes
    (h : Amid range pageSize page earlier names offset t st) {name : String}
    (hname : name ∈ names) :
    (probing range pageSize fuel).Meets
      (fun r t' =>
        Amid range pageSize page earlier names offset t'
          { st with emittedAssetRecords := r.2 } ∧
        (r.1 = true → range.role ≠ .data → loud (pagesOf t') < r.2.length))
      (shouldEmitAssetRecord name range st.emittedAssetRecords) t := by
  unfold shouldEmitAssetRecord
  by_cases hrole : range.role = .data
  · rw [if_pos hrole]
    apply Contract.meets_bind
    apply Contract.meets_perform.mpr
    refine ⟨h.underway, fun mine _ => ?_⟩
    have hclaim := h.aside (e := ⟨.claim name range.start, mine⟩) trivial
    exact ⟨hclaim.underway, hclaim.underway, hclaim, fun _ hnot => absurd hrole hnot⟩
  · rw [if_neg hrole]
    by_cases hseen : name ∈ st.emittedAssetRecords
    · rw [if_pos hseen]
      exact Contract.meets_ret.mpr ⟨h.underway, h, by simp⟩
    · rw [if_neg hseen]
      apply Contract.meets_bind
      apply Contract.meets_perform.mpr
      refine ⟨h.underway, fun mine _ => ?_⟩
      have hclaim := h.aside (e := ⟨.claim name range.start, mine⟩) trivial
      have hroom := hclaim.fresh hrole
      refine ⟨hclaim.underway, hclaim.underway, hclaim.note hname hseen, fun _ _ => ?_⟩
      simp only [List.length_append, List.length_singleton]
      omega

theorem left_of_refused (t : FTrace) (item : StreamItem) : Left (t ++ [⟨.send item, false⟩]) :=
  .inr ⟨item, by simp⟩

theorem sendError_probes (h : Amid range pageSize page earlier names offset t st)
    (message : String) {Q : Bool → FTrace → Prop}
    (hQ : ∀ ok, Q ok (t ++ [⟨.send (.error message), ok⟩])) :
    (probing range pageSize fuel).Meets Q (send (.error message)) t := by
  apply Contract.meets_perform.mpr
  refine ⟨h.underway, fun ok _ => ?_⟩
  have hsend := h.aside (e := ⟨.send (.error message), ok⟩) trivial
  exact ⟨hsend.underway, hQ ok⟩

theorem emitFullAsset_probes (h : Amid range pageSize page earlier names offset t st)
    (hroom : range.role ≠ .data → loud (pagesOf t) < st.emittedAssetRecords.length)
    (master asset : Record) (stateId : FullAssetStateId) :
    (probing range pageSize fuel).Meets
      (fun emission t' =>
        emission = .sent ∧ Amid range pageSize page earlier names offset t'
          { st with totalSent := st.totalSent + 1, pageEmitted := st.pageEmitted + 1 } ∨
        emission = .malformed ∧ Amid range pageSize page earlier names offset t' st ∨
        emission = .receiverClosed ∧ Left t')
      (emitFullAsset host master asset stateId) t := by
  unfold emitFullAsset
  split
  · next error hmakes =>
      apply Contract.meets_bind
      apply Contract.meets_perform.mpr
      refine ⟨h.underway, fun ok _ => ?_⟩
      have hsend := h.aside (e := ⟨.send _, ok⟩) trivial
      refine ⟨hsend.underway, hsend.underway, ?_⟩
      cases ok with
      | true => exact .inr (.inl ⟨rfl, hsend⟩)
      | false => exact .inr (.inr ⟨rfl, left_of_refused _ _⟩)
  · apply Contract.meets_bind
    apply Contract.meets_perform.mpr
    refine ⟨h.underway, fun ok _ => ?_⟩
    cases ok with
    | true =>
        have hsend := h.send hroom master asset stateId
        exact ⟨hsend.underway, hsend.underway, .inl ⟨rfl, hsend⟩⟩
    | false =>
        have hsend := h.aside (e := ⟨.send (.asset master asset stateId), false⟩) rfl
        exact ⟨hsend.underway, hsend.underway, .inr (.inr ⟨rfl, left_of_refused _ _⟩)⟩

theorem emitAssets_probes {master : Record} {assets : List (FullAssetStateId × Record)}
    (hassets : ∀ a ∈ assets, a.2.recordName ∈ names)
    (h : Amid range pageSize page earlier names offset t st) :
    (probing range pageSize fuel).Meets
      (fun st' t' => Amid range pageSize page earlier names offset t' st')
      (emitAssets host range master assets st) t := by
  induction assets generalizing t st with
  | nil => exact Contract.meets_ret.mpr ⟨h.underway, h⟩
  | cons a rest ih =>
      obtain ⟨stateId, assetRec⟩ := a
      have hrest : ∀ a ∈ rest, a.2.recordName ∈ names :=
        fun a ha => hassets a (List.mem_cons_of_mem _ ha)
      rw [emitAssets]
      apply Contract.meets_bind
      apply Contract.meets_mono ?_ (shouldEmitAssetRecord_probes h (hassets _ List.mem_cons_self))
      rintro ⟨emit, emitted⟩ t₁ ⟨h₁, hroom⟩
      cases emit with
      | false => exact ih hrest h₁
      | true =>
          simp only [if_true]
          split
          · next hlimit =>
              have hsome : range.limit.isSome = true := by
                cases hrange : range.limit <;> simp [hrange] at hlimit ⊢
              exact Contract.meets_ret.mpr ⟨h₁.underway, { h₁ with limited := fun _ => hsome }⟩
          · apply Contract.meets_bind
            apply Contract.meets_keeping ?_
              (emitFullAsset_probes h₁ (hroom rfl) master assetRec stateId)
            rintro emission t₂ hkeeps (⟨rfl, h₂⟩ | ⟨rfl, h₂⟩ | ⟨rfl, hleft⟩)
            · exact ih hrest h₂
            · exact ih hrest { h₂ with }
            · exact Contract.meets_stop.mpr ⟨hkeeps, .inl hleft⟩

/-! ## pages -/

variable {m : ByMaster}

theorem mem_recordsOf {id : String} {rec : Record} (h : rec ∈ m.recordsOf id) :
    ∃ e ∈ m, e.2 = rec := by
  obtain ⟨e, he, hrec⟩ := List.mem_map.mp h
  exact ⟨e, (List.mem_filter.mp he).1, hrec⟩

theorem mem_of_remove {id : String} {e : String × Record} (h : e ∈ m.remove id) :
    e ∈ m := (List.mem_filter.mp h).1

/-- The records at hand were served. -/
def Served (names : List String) (m : ByMaster) : Prop := ∀ e ∈ m, e.2.recordName ∈ names

theorem Served.recordsOf (h : Served names m) {id : String} {rec : Record}
    (hrec : rec ∈ m.recordsOf id) : rec.recordName ∈ names := by
  obtain ⟨e, he, heq⟩ := mem_recordsOf hrec
  exact heq ▸ h e he

theorem Served.remove (h : Served names m) (id : String) :
    Served names (m.remove id) := fun e he => h e (mem_of_remove he)

variable {pageAssets : ByMaster}

theorem placeMaster_probes {master : Record} (hhand : Served names pageAssets)
    (h : Amid range pageSize page earlier names offset t st) :
    (probing range pageSize fuel).Meets
      (fun r t' => Amid range pageSize page earlier names (offset + 1) t' r.1 ∧ Served names r.2)
      (placeMaster host range behavior master st pageAssets) t := by
  have hrank : st.offset + 1 = offset + 1 := by rw [h.rank]
  have hwaiting : Served names (st.pendingAssets.remove master.recordName) :=
    Served.remove h.waiting _
  unfold placeMaster
  dsimp only
  split
  · refine Contract.meets_ret.mpr ⟨h.underway, ?_, hhand.remove _⟩
    exact { h with waiting := hwaiting, rank := hrank }
  · have hassets : ∀ a ∈ siblings (st.pendingAssets.recordsOf master.recordName ++
        pageAssets.recordsOf master.recordName), a.2.recordName ∈ names := by
      intro a ha
      cases List.mem_append.mp (mem_siblings ha) with
      | inl hpending => exact Served.recordsOf h.waiting hpending
      | inr hpage => exact hhand.recordsOf hpage
    have hremoved : Amid range pageSize page earlier names offset t
        { st with pendingAssets := st.pendingAssets.remove master.recordName } :=
      { h with waiting := hwaiting }
    apply Contract.meets_bind
    apply Contract.meets_mono ?_ (emitAssets_probes hassets hremoved)
    intro st' t' h'
    refine Contract.meets_ret.mpr ⟨h'.underway, ?_, hhand.remove _⟩
    have hrank' : st'.offset + 1 = offset + 1 := by rw [h'.rank]
    exact { h' with rank := hrank' }

theorem placeMasters_probes {masters : List Record} (hhand : Served names pageAssets)
    (h : Amid range pageSize page earlier names offset t st) :
    (probing range pageSize fuel).Meets
      (fun r t' =>
        Amid range pageSize page earlier names (offset + masters.length) t' r.1 ∧
          Served names r.2)
      (placeMasters host range behavior masters st pageAssets) t := by
  induction masters generalizing t st offset pageAssets with
  | nil => exact Contract.meets_ret.mpr ⟨h.underway, h, hhand⟩
  | cons master rest ih =>
      rw [placeMasters]
      apply Contract.meets_bind
      apply Contract.meets_mono ?_ (placeMaster_probes hhand h)
      rintro ⟨st', pageAssets'⟩ t' ⟨h', hhand'⟩
      have hlength : offset + (master :: rest).length = offset + 1 + rest.length := by
        simp only [List.length_cons]
        omega
      rw [hlength]
      exact ih hhand' h'

theorem placeGroup_probes {masterId : String} {records : List Record}
    (hrecords : ∀ rec ∈ records, rec.recordName ∈ names)
    (h : Amid range pageSize page earlier names offset t st) :
    (probing range pageSize fuel).Meets
      (fun st' t' => Amid range pageSize page earlier names offset t' st')
      (placeGroup host range behavior masterId records st) t := by
  unfold placeGroup
  split
  · next master hpending =>
      have hremoved : Amid range pageSize page earlier names offset t
          { st with pendingMasters := st.pendingMasters.remove masterId } := { h with }
      apply Contract.meets_bind
      apply Contract.meets_mono ?_
        (emitAssets_probes (fun a ha => hrecords _ (mem_siblings ha)) hremoved)
      intro st' t' h'
      exact Contract.meets_ret.mpr ⟨h'.underway, { h' with }⟩
  · split
    · next master hpaired =>
        apply emitAssets_probes ?_ h
        intro a ha
        obtain ⟨rec, hrec, rfl⟩ := List.mem_map.mp ha
        exact hrecords rec hrec
    · refine Contract.meets_ret.mpr ⟨h.underway, { h with waiting := ?_ }⟩
      intro e he
      cases List.mem_append.mp he with
      | inl hold => exact h.waiting e hold
      | inr hnew =>
          obtain ⟨rec, hrec, rfl⟩ := List.mem_map.mp hnew
          exact hrecords rec hrec

theorem placeGroups_probes {keys : List String} (hhand : Served names pageAssets)
    (h : Amid range pageSize page earlier names offset t st) :
    (probing range pageSize fuel).Meets
      (fun st' t' => Amid range pageSize page earlier names offset t' st')
      (placeGroups host range behavior pageAssets keys st) t := by
  induction keys generalizing t st with
  | nil => exact Contract.meets_ret.mpr ⟨h.underway, h⟩
  | cons masterId rest ih =>
      rw [placeGroups]
      apply Contract.meets_bind
      apply Contract.meets_mono ?_ (placeGroup_probes (fun rec hrec => hhand.recordsOf hrec) h)
      intro st' t' h'
      exact ih h'

/-! ## the loop -/

/-- Between two requests. -/
structure Asking (range : FetcherRange) (pageSize : Nat) (t : FTrace) (st : FetchState) :
    Prop where
  walk : Walk range pageSize (pagesOf t)
  probes : st.consecutiveEmptyPages = quietTail (pagesOf t)
  few : quietTail (pagesOf t) < maxEmptyPageProbes
  rank : st.offset = reach range.start pageSize (pagesOf t)
  waiting : Served (servedNames t) st.pendingAssets
  known : ∀ name ∈ st.emittedAssetRecords, name ∈ servedNames t
  nodup : range.role ≠ .data → st.emittedAssetRecords.Nodup
  fresh : range.role ≠ .data → loud (pagesOf t) ≤ st.emittedAssetRecords.length
  going : st.stoppedForLimit = false

/-- Why a fetcher asks for no more pages. -/
structure Rested (range : FetcherRange) (pageSize : Nat) (t : FTrace) (st : FetchState) :
    Prop where
  underway : Underway range pageSize t
  reason : st.enumerationIncomplete = true ∨ st.stoppedForLimit = true ∨
    maxEmptyPageProbes ≤ quietTail (pagesOf t) ∨
    quietTail (pagesOf t) < maxEmptyPageProbes ∧
      range.end ≤ reach range.start pageSize (pagesOf t)

theorem Asking.underway (h : Asking range pageSize t st) : Underway range pageSize t where
  walk := h.walk
  fresh := fun hrole => by
    have hcard := card_known (h.nodup hrole) h.known
    have hfresh := h.fresh hrole
    omega

theorem Asking.aside (h : Asking range pageSize t st) (he : Aside e) :
    Asking range pageSize (t ++ [e]) st := by
  have hpages := pagesOf_aside t he
  have hserved := servedNames_other t (aside_op he)
  obtain ⟨hwalk, hprobes, hfew, hrank, hwaiting, hknown, hnodup, hfresh, hgoing⟩ := h
  rw [← hpages] at hwalk hprobes hfew hrank hfresh
  rw [← hserved] at hwaiting hknown
  exact ⟨hwalk, hprobes, hfew, hrank, hwaiting, hknown, hnodup, hfresh, hgoing⟩

theorem Asking.observeToken (h : Asking range pageSize t st) (token : Option String) :
    Asking range pageSize t (st.observeToken token) := by
  unfold FetchState.observeToken
  split
  · exact h
  · split <;> exact { h with }

theorem observeToken_offset (st : FetchState) (token : Option String) :
    (st.observeToken token).offset = st.offset := by
  unfold FetchState.observeToken
  split
  · rfl
  · split <;> rfl

theorem pagesOf_post (t : FTrace) (offset : Nat) (token : Option String)
    (records : List Record) :
    pagesOf (t ++ [⟨.post offset, PageReply.page token records⟩]) =
      ⟨offset, records, 0⟩ :: pagesOf t := by
  rw [pagesOf_snoc]
  rfl

theorem served_page (t : FTrace) (offset : Nat) (token : Option String) (records : List Record) :
    Served (servedNames (t ++ [⟨.post offset, PageReply.page token records⟩]))
      (pageAssetsOf records) := by
  intro e he
  obtain ⟨rec, hrec, hsome⟩ := List.mem_filterMap.mp he
  split at hsome
  · next htype =>
      obtain ⟨id, -, rfl⟩ := Option.map_eq_some_iff.mp hsome
      rw [servedNames_append]
      apply List.mem_append_right
      simpa [servedNames, received, receivedOf] using ⟨rec, ⟨hrec, htype⟩, rfl⟩
  · simp at hsome

theorem Asking.turn (h : Asking range pageSize t st) (hrank : st.offset = offset)
    (hend : offset < range.end) (token : Option String) (records : List Record) :
    Amid range pageSize ⟨offset, records, 0⟩ (pagesOf t)
      (servedNames (t ++ [⟨.post offset, PageReply.page token records⟩])) offset
      (t ++ [⟨.post offset, PageReply.page token records⟩])
      { st with limitReached := false, pageEmitted := 0 } where
  pages := pagesOf_post t offset token records
  walk := walk_cons.mpr ⟨⟨hrank.symm.trans h.rank, hend, h.few⟩, h.walk⟩
  served := rfl
  waiting := fun e he => by
    rw [servedNames_append]
    exact List.mem_append_left _ (h.waiting e he)
  known := fun name hname => by
    rw [servedNames_append]
    exact List.mem_append_left _ (h.known name hname)
  nodup := h.nodup
  fresh := fun hrole => by
    rw [pagesOf_post]
    have hquiet : (Page.mk offset records 0).quiet = true := by simp [Page.quiet]
    simpa [loud, hquiet] using h.fresh hrole
  probes := h.probes
  rank := hrank
  going := h.going
  limited := by simp

theorem quietTail_cons (page : Page) (earlier : List Page) (emitted : Nat)
    (hrecords : page.records ≠ []) :
    quietTail ({ page with emitted := emitted } :: earlier) =
      if emitted = 0 then quietTail earlier + 1 else 0 := by
  have hquiet : ({ page with emitted := emitted } : Page).quiet = decide (emitted = 0) := by
    simp [Page.quiet, hrecords]
  simp [quietTail, hquiet]

theorem Amid.stopForLimit (h : Amid range pageSize page earlier names offset t st)
    (hrole : range.limit.isSome = true → range.role = .limitProbe)
    (hlimit : st.limitReached = true) : Rested range pageSize t (st.stopForLimit range) where
  underway := h.underway
  reason := by
    have hprobe := hrole (h.limited hlimit)
    simp [FetchState.stopForLimit, hprobe]

/-- The page is done, and the loop goes on unless too many quiet pages came last. -/
theorem Amid.asking (h : Amid range pageSize page earlier names offset t st) {st' : FetchState}
    (hprobes : st'.consecutiveEmptyPages = quietTail (pagesOf t))
    (hfew : quietTail (pagesOf t) < maxEmptyPageProbes)
    (hrank : st'.offset = reach range.start pageSize (pagesOf t))
    (hsame : (st'.pendingAssets, st'.emittedAssetRecords, st'.stoppedForLimit) =
      (st.pendingAssets, st.emittedAssetRecords, st.stoppedForLimit)) :
    Asking range pageSize t st' := by
  simp only [Prod.mk.injEq] at hsame
  obtain ⟨hwaiting, hknown, hgoing⟩ := hsame
  exact {
    walk := h.underway.walk
    probes := hprobes
    few := hfew
    rank := hrank
    waiting := fun e he => by
      rw [h.served]
      exact h.waiting e (hwaiting ▸ he)
    known := fun name hname => by
      rw [h.served]
      exact h.known name (hknown ▸ hname)
    nodup := hknown ▸ h.nodup
    fresh := hknown ▸ h.fresh
    going := hgoing.trans h.going }

/-- One page more, after which the loop goes on or rests. -/
def Turned (range : FetcherRange) (pageSize : Nat) (earlier : List Page) (r : FetchState × Bool)
    (t : FTrace) : Prop :=
  if r.2 then
    Asking range pageSize t r.1 ∧ (pagesOf t).length = earlier.length + 1
  else
    Rested range pageSize t r.1

theorem Amid.turned (h : Amid range pageSize page earlier names offset t st) {st' : FetchState}
    (hasking : Asking range pageSize t st') : Turned range pageSize earlier (st', true) t := by
  refine ⟨hasking, ?_⟩
  rw [h.pages]
  rfl

/-- A page that has records, after which the loop goes on or rests. -/
theorem placePage_probes
    (h : Amid range behavior.pageSize page earlier names page.offset t
      { st with limitReached := false, pageEmitted := 0 })
    (hrole : range.limit.isSome = true → range.role = .limitProbe)
    (hrecords : page.records ≠ []) (hhand : Served names (pageAssetsOf page.records))
    (hoffset : page.offset = reach range.start behavior.pageSize earlier) :
    (probing range behavior.pageSize fuel).Meets
      (Turned range behavior.pageSize earlier)
      (placePage host range behavior page.records st) t := by
  -- where the masters of the page start
  have hstart : ∃ offset, offset + (pageMastersOf page.records).length =
      reach range.start behavior.pageSize (page :: earlier) ∧
      Amid range behavior.pageSize page earlier names offset t
        (if pageMastersOf page.records = [] then
          { st with
            limitReached := false,
            pageEmitted := 0,
            offset := st.offset + max (pageAssetsOf page.records).length 1 }
        else { st with limitReached := false, pageEmitted := 0 }) := by
    have hrank : st.offset = page.offset := h.rank
    by_cases hmasters : pageMastersOf page.records = []
    · rw [if_pos hmasters]
      refine ⟨page.offset + max (pageAssetsOf page.records).length 1, ?_, { h with rank := ?_ }⟩
      · simp [reach, Page.advance, hrecords, hmasters, hoffset]
      · simp [hrank]
    · rw [if_neg hmasters]
      refine ⟨page.offset, ?_, h⟩
      simp [reach, Page.advance, Page.masters, hrecords, hmasters, hoffset]
  obtain ⟨offset, hreach, hmasters⟩ := hstart
  unfold placePage
  apply Contract.meets_bind
  apply Contract.meets_mono ?_ (placeMasters_probes hhand hmasters)
  intro ⟨st₁, pageAssets⟩ t₁ ⟨h₁, hhand₁⟩
  dsimp only at h₁ hhand₁ ⊢
  rw [hreach] at h₁
  by_cases hlimit₁ : st₁.limitReached = true
  · rw [if_pos hlimit₁]
    exact Contract.meets_ret.mpr ⟨h₁.underway, h₁.stopForLimit hrole hlimit₁⟩
  · rw [if_neg hlimit₁]
    apply Contract.meets_bind
    apply Contract.meets_mono ?_ (placeGroups_probes hhand₁ h₁)
    intro st₂ t₂ h₂
    have htail : quietTail (pagesOf t₂) =
        if st₂.pageEmitted = 0 then quietTail earlier + 1 else 0 := by
      rw [h₂.pages]
      exact quietTail_cons page earlier _ hrecords
    by_cases hlimit₂ : st₂.limitReached = true
    · rw [if_pos hlimit₂]
      exact Contract.meets_ret.mpr ⟨h₂.underway, h₂.stopForLimit hrole hlimit₂⟩
    · rw [if_neg hlimit₂]
      split
      · apply Contract.meets_bind
        apply sendError_probes h₂
        intro ok
        have hsend := h₂.aside (e := ⟨.send (.error ("Photo enumeration is incomplete: " ++
          toString (pendingRecordCount st₂) ++
          " unpaired CPLMaster/CPLAsset records exceeded the pending-pair buffer.")), ok⟩) trivial
        exact Contract.meets_ret.mpr ⟨hsend.underway, hsend.underway, .inl rfl⟩
      · split
        · next hquiet =>
            rw [if_pos hquiet, ← h₂.probes] at htail
            refine Contract.meets_ret.mpr ⟨h₂.underway, ?_⟩
            by_cases hgo : st₂.consecutiveEmptyPages + 1 < maxEmptyPageProbes
            · simp only [hgo, decide_true]
              have hprobes : { st₂ with consecutiveEmptyPages := st₂.consecutiveEmptyPages + 1
                }.consecutiveEmptyPages = quietTail (pagesOf t₂) := htail.symm
              exact h₂.turned (h₂.asking hprobes (by omega) (h₂.pages ▸ h₂.rank) rfl)
            · simp only [hgo, decide_false]
              exact ⟨h₂.underway, .inr (.inr (.inl (by omega)))⟩
        · next hquiet =>
            rw [if_neg hquiet] at htail
            refine Contract.meets_ret.mpr ⟨h₂.underway, ?_⟩
            have hfew : quietTail (pagesOf t₂) < maxEmptyPageProbes := by
              simp [htail, maxEmptyPageProbes]
            exact h₂.turned (h₂.asking htail.symm hfew (h₂.pages ▸ h₂.rank) rfl)

theorem placeEmptyPage_probes
    (h : Amid range behavior.pageSize page earlier names page.offset t
      { st with limitReached := false, pageEmitted := 0 })
    (hrecords : page.records = [])
    (hoffset : page.offset = reach range.start behavior.pageSize earlier) :
    (probing range behavior.pageSize fuel).Meets
      (Turned range behavior.pageSize earlier)
      (placeEmptyPage range behavior st) t := by
  have htail : quietTail (pagesOf t) = st.consecutiveEmptyPages + 1 := by
    have hprobes : st.consecutiveEmptyPages = quietTail earlier := h.probes
    rw [h.pages, hprobes]
    simp [quietTail, Page.quiet, hrecords]
  unfold placeEmptyPage
  dsimp only
  split
  · next hover =>
      split
      · apply Contract.meets_bind
        apply sendError_probes h
        intro ok
        have hsend := h.aside (e := ⟨.send (.error
          ("Photo enumeration is incomplete: Apple returned " ++ toString maxEmptyPageProbes ++
            " consecutive empty pages without confirming the end of the stream.")), ok⟩) trivial
        exact Contract.meets_ret.mpr ⟨hsend.underway, hsend.underway, .inl rfl⟩
      · refine Contract.meets_ret.mpr ⟨h.underway, ?_⟩
        exact ⟨h.underway, .inr (.inr (.inl (by omega)))⟩
  · next hgo =>
      refine Contract.meets_ret.mpr ⟨h.underway, ?_⟩
      have hrank : st.offset = page.offset := h.rank
      refine h.turned (h.asking htail.symm (by omega) ?_ rfl)
      rw [h.pages]
      simp [reach, Page.advance, hrecords, hrank, hoffset]

/-! ## the whole fetcher -/

theorem Underway.aside (h : Underway range pageSize t) (he : Aside e) :
    Underway range pageSize (t ++ [e]) := by
  have hpages := pagesOf_aside t he
  have hserved := servedNames_other t (aside_op he)
  exact ⟨hpages ▸ h.walk, fun hrole => by rw [hpages, hserved]; exact h.fresh hrole⟩

theorem aside_probes (op : Op) {α : Type} {f : Resp op → FetcherProc α}
    {Q : α → FTrace → Prop} (haside : ∀ r, Aside ⟨op, r⟩) (h : Underway range pageSize t)
    (hf : ∀ r, Underway range pageSize (t ++ [⟨op, r⟩]) →
      (probing range pageSize fuel).Meets Q (f r) (t ++ [⟨op, r⟩])) :
    (probing range pageSize fuel).Meets Q (perform op >>= f) t := by
  apply Contract.meets_bind
  apply Contract.meets_perform.mpr
  exact ⟨h, fun r _ => ⟨h.aside (haside r), hf r (h.aside (haside r))⟩⟩

/-- Why a fetcher stops early. -/
def StoppedEarly (t : FTrace) : Prop := Left t ∨ Failed t

theorem StoppedEarly.append (h : StoppedEarly t) (t' : FTrace) : StoppedEarly (t ++ t') := by
  cases h with
  | inl hleft =>
      cases hleft with
      | inl hclosed => exact .inl (.inl (List.mem_append_left t' hclosed))
      | inr hsend =>
          obtain ⟨item, hsend⟩ := hsend
          exact .inl (.inr ⟨item, List.mem_append_left t' hsend⟩)
  | inr hfailed =>
      obtain ⟨offset, message, hfailed⟩ := hfailed
      exact .inr ⟨offset, message, List.mem_append_left t' hfailed⟩

theorem earlyExit_probes {failure : EnumerationFailure} {α : Type} {Q : α → FTrace → Prop}
    (h : Underway range pageSize t) (hstopped : StoppedEarly t) :
    (probing range pageSize fuel).Meets Q
      (complete none (.incomplete failure) >>= fun _ => .stop) t := by
  apply aside_probes (.complete none (.incomplete failure)) (fun _ => trivial) h
  intro r hafter
  refine Contract.meets_stop.mpr ⟨hafter, ?_⟩
  cases hstopped.append [⟨.complete none (.incomplete failure), r⟩] with
  | inl hleft => exact .inl hleft
  | inr hfailed => exact .inr (.inl hfailed)

theorem Asking.failed (h : Asking range pageSize t st) (hend : st.offset < range.end)
    (message : String) :
    Underway range pageSize (t ++ [⟨.post st.offset, PageReply.error message⟩]) := by
  have hpages : pagesOf (t ++ [⟨.post st.offset, PageReply.error message⟩]) =
      ⟨st.offset, [], 0⟩ :: pagesOf t := by
    rw [pagesOf_snoc]
    rfl
  have hserved : servedNames (t ++ [⟨.post st.offset, PageReply.error message⟩]) =
      servedNames t := by
    rw [servedNames_append]
    simp [servedNames, received, receivedOf]
  constructor
  · rw [hpages]
    exact walk_cons.mpr ⟨⟨h.rank, hend, h.few⟩, h.walk⟩
  · intro hrole
    rw [hpages, hserved]
    simpa [loud, Page.quiet] using h.underway.fresh hrole

/-- **The loop keeps to its walk**, whatever the provider answers. -/
theorem fetchPages_probes (hrole : range.limit.isSome = true → range.role = .limitProbe)
    (fuel more : Nat) (hfuel : fuel ≤ (pagesOf t).length + more)
    (h : Asking range behavior.pageSize t st) :
    (probing range behavior.pageSize fuel).Meets
      (fun st' t' => Rested range behavior.pageSize t' st')
      (fetchPages host range behavior more st) t := by
  induction more generalizing t st with
  | zero =>
      rw [← requests_eq] at hfuel
      exact Contract.meets_stop.mpr ⟨h.underway, .inr (.inr hfuel)⟩
  | succ more ih =>
      rw [fetchPages]
      apply aside_probes .isClosed (fun _ => trivial) h.underway
      intro closed hafter
      have hopen := h.aside (e := ⟨.isClosed, closed⟩) trivial
      cases closed with
      | true =>
          exact earlyExit_probes hafter (.inl (.inl (by simp)))
      | false =>
          by_cases hend : range.end ≤ st.offset
          · rw [if_pos hend]
            refine Contract.meets_ret.mpr ⟨hafter, hafter, .inr (.inr (.inr ⟨hopen.few, ?_⟩))⟩
            rw [← hopen.rank]
            exact hend
          · rw [if_neg hend]
            rw [Nat.not_le] at hend
            apply Contract.meets_bind
            apply Contract.meets_perform.mpr
            refine ⟨hafter, fun reply _ => ?_⟩
            cases reply with
            | error message =>
                have hfailed := hopen.failed hend message
                refine ⟨hfailed, aside_probes (.send (.error message)) (fun _ => trivial) hfailed
                  (fun ok hsent => ?_)⟩
                apply earlyExit_probes hsent
                exact .inr ⟨st.offset, message, by simp⟩
            | page token records =>
                have hasked := (hopen.observeToken token).turn (observeToken_offset st token)
                  hend token records
                refine ⟨hasked.underway, ?_⟩
                have hnext (r : FetchState × Bool) (t' : FTrace)
                    (hkeeps : Underway range behavior.pageSize t')
                    (hr : Turned range behavior.pageSize (pagesOf (t ++ [⟨.isClosed, false⟩])) r
                      t') :
                    (probing range behavior.pageSize fuel).Meets
                      (fun st' t' => Rested range behavior.pageSize t' st')
                      (if r.2 then fetchPages host range behavior more r.1 else pure r.1) t' := by
                  unfold Turned at hr
                  split at hr
                  · next hgo =>
                      have hlength : (pagesOf (t ++ [⟨.isClosed, false⟩])).length =
                          (pagesOf t).length := by
                        rw [pagesOf_snoc]
                        rfl
                      rw [if_pos hgo]
                      exact ih (by omega) hr.1
                  · next hgo =>
                      rw [if_neg hgo]
                      exact Contract.meets_ret.mpr ⟨hkeeps, hr⟩
                dsimp only
                split
                · next hnil =>
                    exact Contract.meets_bind (Contract.meets_keeping hnext
                      (placeEmptyPage_probes hasked hnil hopen.rank))
                · next hrecords =>
                    exact Contract.meets_bind (Contract.meets_keeping hnext
                      (placePage_probes hasked hrole hrecords (served_page _ _ _ _) hopen.rank))

theorem finish_probes (h : Underway range pageSize t) :
    (probing range pageSize fuel).Meets (fun _ t' => Underway range pageSize t')
      (finish behavior st) t := by
  have hreport (st' : FetchState) {t' : FTrace} (h' : Underway range pageSize t') :
      (probing range pageSize fuel).Meets (fun _ t' => Underway range pageSize t')
        (report behavior st') t' := by
    have hcomplete (token : Option String) {t'' : FTrace} (h'' : Underway range pageSize t'') :
        (probing range pageSize fuel).Meets (fun _ t' => Underway range pageSize t')
          (complete token (completionOf st') >>= fun _ => pure st') t'' :=
      aside_probes (.complete token (completionOf st')) (fun _ => trivial) h''
        (fun _ hafter => Contract.meets_ret.mpr ⟨hafter, hafter⟩)
    unfold report
    dsimp only
    split
    · exact aside_probes .suppress (fun _ => trivial) h' (fun _ hafter => hcomplete _ hafter)
    · exact hcomplete _ h'
  unfold finish
  split
  · exact aside_probes (.send (.error _)) (fun _ => trivial) h (fun _ hafter => hreport _ hafter)
  · exact hreport st h

theorem asking_init (range : FetcherRange) (pageSize : Nat) :
    Asking range pageSize [] (.init range.start) := by
  constructor <;>
    simp [walk_nil, FetchState.init, pagesOf, quietTail, reach, Served, loud, maxEmptyPageProbes]

theorem spawnFetcher_probes (hrole : range.limit.isSome = true → range.role = .limitProbe)
    (fuel : Nat) :
    (probing range behavior.pageSize fuel).Meets
      (fun _ t' => Underway range behavior.pageSize t')
      (spawnFetcher host fuel behavior range) [] := by
  apply Contract.meets_bind
  apply Contract.meets_mono ?_ (fetchPages_probes hrole fuel fuel (by simp) (asking_init range _))
  intro st t hrested
  exact finish_probes hrested.underway

end Kei.PhotoStream
