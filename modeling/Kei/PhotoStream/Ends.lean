import Kei.PhotoStream.Plan
import Kei.PhotoStream.Probes

/-!
# Kei.PhotoStream.Ends

How a fetcher comes to its end.

Whatever the pages contain, the fetcher of a range makes a bounded number of
requests and then returns, or stops because the consumer is gone or a request
failed.  When it reports the proven end of its range, it has been through the
range, or has seen `maxEmptyPageProbes` quiet pages in a row; the two kinds of
pages for which the second says less than the first are `Orderly`'s.
-/

namespace Kei.PhotoStream

open Proc

/-! ## termination -/

/-- How many requests the fetcher of a range makes that is served so many names.  Those of a
counted range are all at ranks of its own, also for empty pages. -/
def requestBound (range : FetcherRange) (served : Nat) : Nat :=
  if range.role = .data then range.end - range.start else maxEmptyPageProbes * (served + 1)

theorem requestBound_mono (range : FetcherRange) {n m : Nat} (h : n ≤ m) :
    requestBound range n ≤ requestBound range m := by
  unfold requestBound
  split
  · exact le_refl _
  · exact Nat.mul_le_mul_left _ (by omega)

variable {range : FetcherRange} {pageSize : Nat} {page : Page} {earlier pages : List Page}
  {host : Host} {behavior : FetcherBehavior} {t : FTrace} {st : FetchState}

theorem Underway.requests_le (h : Underway range pageSize t) (hpage : 0 < pageSize) :
    requests t ≤ requestBound range (servedNames t).toFinset.card := by
  rw [requests_eq, requestBound]
  split
  · exact h.walk.length_le_end hpage
  · next hrole =>
      have hlength := h.walk.length_le
      have htail := h.walk.quietTail_le
      have hloud := Nat.mul_le_mul_left maxEmptyPageProbes (h.fresh hrole)
      rw [Nat.mul_succ]
      omega

theorem behavior_pageSize_pos (request : StreamRequest) (defaultPageSize : Nat) :
    0 < (request.behavior defaultPageSize).pageSize :=
  requestPageSize_pos request.profile defaultPageSize

theorem range_role {request : StreamRequest} {defaultPageSize : Nat}
    (hrange : range ∈ request.ranges defaultPageSize) :
    range.limit.isSome = true → range.role = .limitProbe := ranges_role hrange

theorem spawnFetcher_steps_probes {fuel : Nat} {q : FetcherProc FetchState}
    (hrole : range.limit.isSome = true → range.role = .limitProbe)
    (h : Steps (spawnFetcher host fuel behavior range) t q) :
    (probing range behavior.pageSize fuel).Meets (fun _ t' => Underway range behavior.pageSize t')
      q t := by
  have hwhole : (probing range behavior.pageSize fuel).Meets
      (fun _ t' => Underway range behavior.pageSize t')
      (spawnFetcher host fuel behavior range) [] := spawnFetcher_probes hrole fuel
  simpa using Contract.meets_steps hwhole h (fun _ _ _ _ => trivial)

/-- **Every fetcher terminates**: it makes a bounded number of requests, and with fuel for them
it comes to its end with any provider that serves finitely many names. -/
theorem fetcher_terminates (host : Host) (request : StreamRequest) (defaultPageSize : Nat)
    {range : FetcherRange} (hrange : range ∈ request.ranges defaultPageSize) :
    (∀ fuel t q, Steps (spawnFetcher host fuel (request.behavior defaultPageSize) range) t q →
      requests t ≤ requestBound range (servedNames t).toFinset.card) ∧
    ∀ (names : Finset String) (fuel : Nat), requestBound range names.card < fuel →
      ∀ provider : FTrace → (op : Op) → Resp op,
        (∀ t q, Follows provider t →
          Steps (spawnFetcher host fuel (request.behavior defaultPageSize) range) t q →
            ∀ name ∈ servedNames t, name ∈ names) →
        ∃ t q, Follows provider t ∧
          Steps (spawnFetcher host fuel (request.behavior defaultPageSize) range) t q ∧
          ((∃ st, q = .ret st) ∨ q = .stop ∧ StoppedEarly t) := by
  have hrole := range_role hrange
  have hpage := behavior_pageSize_pos request defaultPageSize
  constructor
  · intro fuel t q hsteps
    exact (Contract.meets_keeps (spawnFetcher_steps_probes hrole hsteps)).requests_le hpage
  · intro names fuel hfuel provider hserves
    obtain ⟨t, q, hfollows, hsteps, hend⟩ := follows_ends provider
      (spawnFetcher host fuel (request.behavior defaultPageSize) range)
    refine ⟨t, q, hfollows, hsteps, ?_⟩
    cases hend with
    | inr hret => exact .inl hret
    | inl hstop =>
        subst hstop
        have hmeets := spawnFetcher_steps_probes hrole hsteps
        have hbound := (Contract.meets_keeps hmeets).requests_le hpage
        have hcard : (servedNames t).toFinset.card ≤ names.card :=
          Finset.card_le_card (fun name hname =>
            hserves t _ hfollows hsteps name (by simpa using hname))
        have hmono := requestBound_mono range hcard
        refine .inr ⟨rfl, ?_⟩
        cases (Contract.meets_stop.mp hmeets).2 with
        | inl hleft => exact .inl hleft
        | inr hmore =>
            cases hmore with
            | inl hfailed => exact .inr hfailed
            | inr hspent => omega

/-- A library of one pair, at the first rank. -/
def oneProvider (_ : FTrace) : (op : Op) → Resp op
  | .isClosed => false
  | .post offset => .page none (if offset = 0 then [itsMaster, waitingAsset] else [])
  | .claim _ _ => true
  | .send _ => true
  | .suppress => ()
  | .complete _ _ => ()

theorem oneProvider_serves {t : FTrace} (h : Follows oneProvider t) :
    ∀ name ∈ servedNames t, name ∈ ({"a"} : Finset String) := by
  intro name hname
  obtain ⟨rec, hrec, rfl⟩ := List.mem_map.mp hname
  obtain ⟨hreceived, htype⟩ := List.mem_filter.mp hrec
  obtain ⟨e, he, hin⟩ := List.mem_flatMap.mp hreceived
  obtain ⟨before, after, ht⟩ := List.append_of_mem he
  have hresp := h before e after ht
  obtain ⟨op, r⟩ := e
  cases op with
  | post offset =>
      simp only [oneProvider] at hresp
      subst hresp
      have hpair : rec ∈ (if offset = 0 then [itsMaster, waitingAsset] else []) := hin
      split at hpair
      · cases List.mem_pair.mp hpair with
        | inl hmaster =>
            subst hmaster
            exact absurd htype (by decide)
        | inr hasset =>
            subst hasset
            decide
      · simp at hpair
  | _ => simp [receivedOf] at hin

/-- The fetcher of the one range ends within ten requests. -/
theorem fetcher_terminates_one :
    ∃ t q, Follows oneProvider t ∧
      Steps (spawnFetcher plainHost 11 (oneRange.behavior 1) ⟨0, u64Max, none, .tailProof⟩) t q ∧
      ((∃ st, q = .ret st) ∨ q = .stop ∧ StoppedEarly t) :=
  (fetcher_terminates plainHost oneRange 1 (List.mem_singleton_self _)).2 {"a"} 11 (by decide)
    oneProvider (fun _ _ hfollows _ => oneProvider_serves hfollows)

/-! ## the proven end -/

/-- A request was for the rank. -/
def Requested (pageSize : Nat) (pages : List Page) (rank : Nat) : Prop :=
  ∃ page ∈ pages, page.offset ≤ rank ∧ rank < page.offset + page.span pageSize

/-- What the proven end of a range takes: a request for every rank of a counted range, and
`maxEmptyPageProbes` empty pages at the end of another one. -/
def ReachedEnd (range : FetcherRange) (pageSize : Nat) (pages : List Page) : Prop :=
  if range.role = .data then
    ∀ rank, range.start ≤ rank → rank < range.end → Requested pageSize pages rank
  else
    maxEmptyPageProbes ≤ emptyTail pages

/-- Pages that let the fetcher of a range see its end.  A page of a counted range that is not
for the last ranks has at most a page of assets without a master, and is not the last one of a
run of quiet pages; a run of quiet pages past the count is one of empty pages. -/
def Orderly (range : FetcherRange) (pageSize : Nat) (pages : List Page) : Prop :=
  if range.role = .data then
    ∀ page earlier, page :: earlier <:+ pages →
      reach range.start pageSize earlier + page.span pageSize < range.end →
        page.advance pageSize ≤ page.span pageSize ∧
          quietTail (page :: earlier) < maxEmptyPageProbes
  else
    ∀ latest, latest <:+ pages →
      (maxEmptyPageProbes ≤ quietTail latest → maxEmptyPageProbes ≤ emptyTail latest) ∧
        (quietTail latest < maxEmptyPageProbes →
          reach range.start pageSize latest < range.end)

theorem emptyTail_le (pages : List Page) : emptyTail pages ≤ quietTail pages := by
  induction pages with
  | nil => simp [emptyTail]
  | cons page earlier ih =>
      by_cases hrecords : page.records = []
      · simp [emptyTail, quietTail, Page.quiet, hrecords, ih]
      · simp [emptyTail, hrecords]

theorem exists_suffix {page : Page} (h : page ∈ pages) : ∃ earlier, page :: earlier <:+ pages := by
  obtain ⟨later, earlier, hpages⟩ := List.append_of_mem h
  exact ⟨earlier, later, hpages.symm⟩

variable {latest : List Page}

theorem next_page (h : latest <:+ pages) (hne : latest ≠ pages) :
    ∃ page, page :: latest <:+ pages := by
  obtain ⟨later, hpages⟩ := h
  cases later using List.reverseRecOn with
  | nil => exact absurd hpages hne
  | append_singleton later page => exact ⟨page, later, by simpa using hpages⟩

theorem reach_mono (start pageSize : Nat) (h : latest <:+ pages) :
    reach start pageSize latest ≤ reach start pageSize pages := by
  induction pages with
  | nil => simp [List.suffix_nil.mp h]
  | cons page earlier ih =>
      cases List.suffix_cons_iff.mp h with
      | inl heq => rw [heq]
      | inr hs =>
          have := ih hs
          simp only [reach]
          omega

theorem Walk.quietTail_lt (h : Walk range pageSize pages) (hs : latest <:+ pages)
    (hne : latest ≠ pages) :
    quietTail latest < maxEmptyPageProbes ∧ reach range.start pageSize latest < range.end := by
  obtain ⟨page, hpage⟩ := next_page hs hne
  obtain ⟨hoffset, hend, hfew⟩ := h page latest hpage
  exact ⟨hfew, by omega⟩

/-- What a page asks for is behind the one after it, or in its own span. -/
theorem Walk.asked_le (h : Walk range pageSize pages) {page : Page} (hmem : page ∈ pages) :
    page.offset + page.span pageSize ≤ reach range.start pageSize pages + pageSize := by
  obtain ⟨earlier, hs⟩ := exists_suffix hmem
  obtain ⟨hoffset, -, -⟩ := h page earlier hs
  have hreach := reach_mono range.start pageSize hs
  simp only [reach] at hreach
  have hspan : page.span pageSize ≤ page.advance pageSize + pageSize := by
    unfold Page.span Page.advance
    split
    · next hrecords => simp [Page.masters, pageMastersOf, hrecords]
    · split
      · next hmasters => simp [Page.masters, hmasters]
      · omega
  omega

theorem Walk.requested (h : Walk range pageSize pages)
    (horderly : ∀ page earlier, page :: earlier <:+ pages →
      reach range.start pageSize earlier + page.span pageSize < range.end →
        page.advance pageSize ≤ page.span pageSize) {rank : Nat} (hstart : range.start ≤ rank)
    (hend : rank < range.end) (hrank : rank < reach range.start pageSize pages) :
    Requested pageSize pages rank := by
  induction pages with
  | nil =>
      simp only [reach] at hrank
      omega
  | cons page earlier ih =>
      obtain ⟨⟨hoffset, -, -⟩, hwalk⟩ := walk_cons.mp h
      by_cases hbefore : rank < reach range.start pageSize earlier
      · obtain ⟨page', hmem, hasked⟩ := ih hwalk (fun p e hs => horderly p e
          (hs.trans (List.suffix_cons page earlier))) hbefore
        exact ⟨page', List.mem_cons_of_mem _ hmem, hasked⟩
      · have hadvance := horderly page earlier (List.suffix_refl _)
        simp only [reach] at hrank
        exact ⟨page, List.mem_cons_self, by omega, by omega⟩

/-- How a walk ends. -/
def Over (range : FetcherRange) (pageSize : Nat) (pages : List Page) : Prop :=
  maxEmptyPageProbes ≤ quietTail pages ∨
    quietTail pages < maxEmptyPageProbes ∧ range.end ≤ reach range.start pageSize pages

/-- The ranks of a counted range were all asked for if the pages are orderly. -/
theorem Walk.requested_of_orderly (h : Walk range pageSize pages)
    (hover : Over range pageSize pages)
    (horderly : ∀ page earlier, page :: earlier <:+ pages →
      reach range.start pageSize earlier + page.span pageSize < range.end →
        page.advance pageSize ≤ page.span pageSize ∧
          quietTail (page :: earlier) < maxEmptyPageProbes) {rank : Nat}
    (hstart : range.start ≤ rank) (hend : rank < range.end) : Requested pageSize pages rank := by
  have hadvances := fun page earlier hs hlt => (horderly page earlier hs hlt).1
  by_cases hrank : rank < reach range.start pageSize pages
  · exact h.requested hadvances hstart hend hrank
  · -- the last page is a quiet one, for the last ranks
    cases hover with
    | inr hpast => omega
    | inl hquiet =>
        cases pages with
        | nil => simp [quietTail, maxEmptyPageProbes] at hquiet
        | cons page earlier =>
            obtain ⟨⟨hoffset, -, -⟩, -⟩ := walk_cons.mp h
            have hlast := (horderly page earlier (List.suffix_refl _)).mt (by omega)
            simp only [reach] at hrank
            exact ⟨page, List.mem_cons_self, by omega, by omega⟩

/-- Where a rank past a page was asked for, the page is not the last one and does not skip. -/
theorem Walk.orderly_of_requested (h : Walk range pageSize pages)
    (hall : ∀ rank, range.start ≤ rank → rank < range.end → Requested pageSize pages rank)
    {page : Page} {earlier : List Page} (hs : page :: earlier <:+ pages)
    (hend : reach range.start pageSize earlier + page.span pageSize < range.end) :
    page.advance pageSize ≤ page.span pageSize ∧
      quietTail (page :: earlier) < maxEmptyPageProbes := by
  have hoffset := (h page earlier hs).1
  have hstart := reach_mono range.start pageSize (List.nil_suffix : [] <:+ earlier)
  simp only [reach] at hstart
  obtain ⟨page', hmem, hfrom, hto⟩ := hall
    (reach range.start pageSize earlier + page.span pageSize) (by omega) hend
  obtain ⟨earlier', hs'⟩ := exists_suffix hmem
  have hspan : pageSize ≤ page.span pageSize := Nat.le_max_left _ _
  cases List.suffix_or_suffix_of_suffix hs' hs with
  | inl hbefore =>
      exfalso
      cases List.suffix_cons_iff.mp hbefore with
      | inl heq =>
          cases heq
          omega
      | inr hbefore =>
          have hpast := (h.suffix ((List.suffix_cons page earlier).trans hs)).asked_le
            (hbefore.subset List.mem_cons_self)
          omega
  | inr hafter =>
      cases List.suffix_cons_iff.mp hafter with
      | inl heq =>
          cases heq
          omega
      | inr hafter =>
          have hoffset' := (h page' earlier' hs').1
          have hreach := reach_mono range.start pageSize hafter
          simp only [reach] at hreach
          have hne : page :: earlier ≠ pages := by
            intro heq
            have hlonger := hs'.length_le
            have := hafter.length_le
            rw [← heq] at hlonger
            simp only [List.length_cons] at hlonger this
            omega
          exact ⟨by omega, (h.quietTail_lt hs hne).1⟩

/-- **A walk that is over has reached its end** exactly if its pages are orderly. -/
theorem Walk.reachedEnd_iff (h : Walk range pageSize pages) (hover : Over range pageSize pages) :
    ReachedEnd range pageSize pages ↔ Orderly range pageSize pages := by
  unfold ReachedEnd Orderly
  split
  · constructor
    · intro hall page earlier hs hend
      exact h.orderly_of_requested hall hs hend
    · intro horderly rank hstart hend
      exact h.requested_of_orderly hover horderly hstart hend
  · constructor
    · intro hempty latest hs
      have hquiet := emptyTail_le pages
      by_cases heq : latest = pages
      · subst heq
        exact ⟨fun _ => hempty, by omega⟩
      · have hlt := h.quietTail_lt hs heq
        exact ⟨by omega, fun _ => hlt.2⟩
    · intro horderly
      have hlast := horderly pages (List.suffix_refl _)
      cases hover with
      | inl hquiet => exact hlast.1 hquiet
      | inr hpast =>
          have := hlast.2 hpast.1
          omega

theorem provenEof_over {fuel : Nat} {q : FetcherProc FetchState} {token : Option String}
    (hrole : range.limit.isSome = true → range.role = .limitProbe)
    (h : Steps (spawnFetcher host fuel behavior range) t q)
    (hproven : (token, .provenEof) ∈ completesOf t) :
    Walk range behavior.pageSize (pagesOf t) ∧ Over range behavior.pageSize (pagesOf t) := by
  have hloop : wp Fetching (fun st' t' => Fetched range t' st')
      (fetchPages host range behavior fuel (.init range.start)) [] :=
    fetchPages_spec hrole fuel (looping_init range)
  have hwalk : (probing range behavior.pageSize fuel).Meets
      (fun st' t' => Rested range behavior.pageSize t' st')
      (fetchPages host range behavior fuel (.init range.start)) [] :=
    fetchPages_probes hrole fuel fuel (by simp) (asking_init range _)
  cases steps_bind h with
  | inl hfetching =>
      obtain ⟨q', hsteps, -⟩ := hfetching
      cases (wp_steps hloop hsteps).1 with
      | inl hnone => simp_all
      | inr hone =>
          obtain ⟨failure, hone⟩ := hone
          simp_all
  | inr hdone =>
      obtain ⟨t₁, t₂, st, rfl, hsteps, hrest⟩ := hdone
      have hfetched := (wp_steps hloop hsteps).2 st rfl
      have hmeets := Contract.meets_steps hwalk hsteps (fun _ _ _ _ => trivial)
      have hrested : Rested range behavior.pageSize t₁ st := by
        simpa using (Contract.meets_ret.mp hmeets).2
      have hnone : completesOf t₁ = [] := by simpa using hfetched.tracks.noComplete
      rw [completesOf_append, hnone, List.nil_append] at hproven
      cases finish_steps hrest with
      | inl hempty => simp [hempty] at hproven
      | inr hreport =>
          obtain ⟨token', c, hone, hend⟩ := hreport
          rw [hone, List.mem_singleton] at hproven
          cases hproven
          obtain ⟨-, rfl, -, hcompletion⟩ := hend rfl
          obtain ⟨hcomplete, hgoing⟩ := completionOf_provenEof hcompletion
          have hpages : pagesOf (t₁ ++ [⟨.complete token .provenEof, ()⟩]) = pagesOf t₁ := by
            rw [pagesOf_snoc]
            rfl
          rw [hpages]
          refine ⟨hrested.underway.walk, ?_⟩
          have hreason := hrested.reason
          rw [hcomplete, hgoing] at hreason
          simpa [Over] using hreason

/-- **A fetcher that reports the proven end has reached it exactly if its pages are orderly.** -/
theorem proven_reached_iff (host : Host) (request : StreamRequest) (defaultPageSize fuel : Nat)
    {range : FetcherRange} (hrange : range ∈ request.ranges defaultPageSize) {t : FTrace}
    {q : FetcherProc FetchState} {token : Option String}
    (h : Steps (spawnFetcher host fuel (request.behavior defaultPageSize) range) t q)
    (hproven : (token, .provenEof) ∈ completesOf t) :
    ReachedEnd range (request.behavior defaultPageSize).pageSize (pagesOf t) ↔
      Orderly range (request.behavior defaultPageSize).pageSize (pagesOf t) := by
  obtain ⟨hwalk, hover⟩ := provenEof_over (range_role hrange) h hproven
  exact hwalk.reachedEnd_iff hover

/-! ## four fetchers -/

/-- The first of the four counted ranges is for the ranks 0 to 5. -/
def fourRanges : StreamRequest := ⟨none, some 24, .fastEnumeration 2, false, false⟩

def sixRanks : FetcherRange := ⟨0, 6, none, .data⟩

def wholeRange : FetcherRange := ⟨0, u64Max, none, .tailProof⟩

/-- The ranks 0 to 4 are deleted. -/
def gapSchedule : List (Nat × Choice) := emptyTurns 0 6

/-- The first page has three assets of one master, and the next ones nothing. -/
def skipSchedule : List (Nat × Choice) :=
  turn 0 none [waitingAsset, waitingAsset, waitingAsset] ++ emptyTurns 0 5

/-- The provider gives the pair of the first rank again and again. -/
def repeatedSchedule : List (Nat × Choice) :=
  (List.replicate 8 (turn 0 none [itsMaster, waitingAsset])).flatten

/-- The trace of the first fetcher. -/
def firstTrace (request : StreamRequest) (schedule : List (Nat × Choice)) : FTrace :=
  Pool.eventsOf 0 (photoStream plainHost 9 1 request schedule).log

theorem firstTrace_steps {request : StreamRequest} {range : FetcherRange}
    (schedule : List (Nat × Choice)) (hrange : (request.ranges 1)[0]? = some range) :
    ∃ q, Steps (spawnFetcher plainHost 9 (request.behavior 1) range)
      (firstTrace request schedule) q := by
  obtain ⟨q, -, hsteps⟩ := @fetcher_steps plainHost 9 1 request schedule 0 range hrange
  exact ⟨q, hsteps⟩

/-- The whole range with one pair, and then nothing. -/
theorem proven_reached_iff_paired :
    (some "t", .provenEof) ∈ completesOf (firstTrace oneRange pairedSchedule) ∧
      ReachedEnd wholeRange 1 (pagesOf (firstTrace oneRange pairedSchedule)) ∧
      Orderly wholeRange 1 (pagesOf (firstTrace oneRange pairedSchedule)) := by
  obtain ⟨q, hsteps⟩ := @firstTrace_steps oneRange wholeRange pairedSchedule rfl
  have hproven : (some "t", .provenEof) ∈ completesOf (firstTrace oneRange pairedSchedule) := by
    decide +kernel
  have hreached : ReachedEnd wholeRange 1 (pagesOf (firstTrace oneRange pairedSchedule)) := by
    show 5 ≤ emptyTail (pagesOf (firstTrace oneRange pairedSchedule))
    decide +kernel
  exact ⟨hproven, hreached, (proven_reached_iff plainHost oneRange 1 9
    (List.mem_singleton_self _) hsteps hproven).mp hreached⟩

/-- A proven end before the end: a counted range of which the last rank was not asked for, one
of which ranks were skipped, and a stream that is given one page again and again. -/
theorem proven_before_end :
    (∃ q, Steps (spawnFetcher plainHost 9 (fourRanges.behavior 1) sixRanks)
        (firstTrace fourRanges gapSchedule) q ∧
      (none, .provenEof) ∈ completesOf (firstTrace fourRanges gapSchedule) ∧
      ¬ ReachedEnd sixRanks 1 (pagesOf (firstTrace fourRanges gapSchedule))) ∧
    (∃ q, Steps (spawnFetcher plainHost 9 (fourRanges.behavior 1) sixRanks)
        (firstTrace fourRanges skipSchedule) q ∧
      (none, .provenEof) ∈ completesOf (firstTrace fourRanges skipSchedule) ∧
      ¬ ReachedEnd sixRanks 1 (pagesOf (firstTrace fourRanges skipSchedule))) ∧
    ∃ q, Steps (spawnFetcher plainHost 9 (oneRange.behavior 1) wholeRange)
        (firstTrace oneRange repeatedSchedule) q ∧
      (none, .provenEof) ∈ completesOf (firstTrace oneRange repeatedSchedule) ∧
      ¬ ReachedEnd wholeRange 1 (pagesOf (firstTrace oneRange repeatedSchedule)) := by
  obtain ⟨q, hgap⟩ := @firstTrace_steps fourRanges sixRanks gapSchedule rfl
  obtain ⟨q', hskip⟩ := @firstTrace_steps fourRanges sixRanks skipSchedule rfl
  obtain ⟨q'', hrepeated⟩ := @firstTrace_steps oneRange wholeRange repeatedSchedule rfl
  constructor
  · refine ⟨q, hgap, by decide +kernel, fun hall => ?_⟩
    have hpages : pagesOf (firstTrace fourRanges gapSchedule) =
        [⟨4, [], 0⟩, ⟨3, [], 0⟩, ⟨2, [], 0⟩, ⟨1, [], 0⟩, ⟨0, [], 0⟩] := rfl
    obtain ⟨page, hmem, hasked⟩ := hall 5 (by decide) (by decide)
    rw [hpages] at hmem
    simp only [List.mem_cons, List.not_mem_nil, or_false] at hmem
    obtain rfl | rfl | rfl | rfl | rfl := hmem <;>
      simp [Page.span, Page.masters, pageMastersOf] at hasked
  constructor
  · refine ⟨q', hskip, by decide +kernel, fun hall => ?_⟩
    have hpages : pagesOf (firstTrace fourRanges skipSchedule) =
        [⟨5, [], 0⟩, ⟨4, [], 0⟩, ⟨3, [], 0⟩,
          ⟨0, [waitingAsset, waitingAsset, waitingAsset], 0⟩] := rfl
    obtain ⟨page, hmem, hasked⟩ := hall 1 (by decide) (by decide)
    rw [hpages] at hmem
    simp only [List.mem_cons, List.not_mem_nil, or_false] at hmem
    obtain rfl | rfl | rfl | rfl := hmem <;>
      simp [Page.span, Page.masters, pageMastersOf, waitingAsset] at hasked
  · refine ⟨q'', hrepeated, by decide +kernel, fun hempty => ?_⟩
    have htail : ¬ 5 ≤ emptyTail (pagesOf (firstTrace oneRange repeatedSchedule)) := by
      decide +kernel
    exact htail hempty

end Kei.PhotoStream
