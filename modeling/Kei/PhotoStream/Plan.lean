import Kei.Lib.Tiling
import Kei.PhotoStream

/-!
# Kei.PhotoStream.Plan

The ranges of a plan tile the ranks.

The data ranges of a counted inventory lead from rank 0 to the count, because
there are enough fetchers for the pages (`le_numFetchers_mul_chunk`), and one
owner takes what follows.  Which ranks are covered thus depends neither on the
limit nor on the count, the page size or the profile.
-/

namespace Kei.PhotoStream

/-! ## ranges -/

def FetcherRange.Contains (range : FetcherRange) (rank : Nat) : Prop :=
  range.start ≤ rank ∧ rank < range.end

/-- The owner of everything past its start. -/
def FetcherRange.OpenEnded (range : FetcherRange) : Prop :=
  range.end = u64Max ∧ (range.role = .tailProof ∨ range.role = .limitProbe)

instance (range : FetcherRange) : Decidable range.OpenEnded :=
  inferInstanceAs (Decidable (_ ∧ _))

def Covered (ranges : List FetcherRange) (rank : Nat) : Prop :=
  ∃ range ∈ ranges, range.Contains rank

/-- The ranges lead from one rank to another. -/
abbrev Leads (a : Nat) (ranges : List FetcherRange) (b : Nat) : Prop :=
  Tiles FetcherRange.start FetcherRange.end a ranges b

theorem leads_nil (a : Nat) : Leads a [] a := .nil a

/-! ## the data ranges -/

theorem le_divCeil_mul (n : Nat) {d : Nat} (hd : 0 < d) : n ≤ divCeil n d * d := by
  have hdiv := Nat.div_add_mod (n + d - 1) d
  have hmod := Nat.mod_lt (n + d - 1) hd
  have hcomm : divCeil n d * d = d * ((n + d - 1) / d) := Nat.mul_comm _ _
  omega

theorem le_numFetchers_mul_chunk (total : Nat) {numFetchers pageSize : Nat}
    (hnum : 0 < numFetchers) (hpage : 0 < pageSize) :
    total ≤ numFetchers * (divCeil (divCeil total numFetchers) pageSize * pageSize) := by
  calc total ≤ divCeil total numFetchers * numFetchers := le_divCeil_mul total hnum
    _ = numFetchers * divCeil total numFetchers := Nat.mul_comm _ _
    _ ≤ numFetchers * (divCeil (divCeil total numFetchers) pageSize * pageSize) :=
        Nat.mul_le_mul_left _ (le_divCeil_mul _ hpage)

theorem dataRange_eq {total chunk i : Nat} {range : FetcherRange}
    (h : dataRange total chunk i = some range) :
    range.start = i * chunk ∧ range.end = min ((i + 1) * chunk) total ∧
      range.start < range.end ∧ range.role = .data := by
  simp only [dataRange] at h
  split at h
  · cases h
    simp_all
  · simp at h

/-- The ranges of the first fetchers lead to the end of the last chunk, or to the count. -/
theorem dataRanges_lead (total chunk n : Nat) :
    Leads 0 ((List.range n).filterMap (dataRange total chunk)) (min (n * chunk) total) := by
  induction n with
  | zero => simpa using leads_nil 0
  | succ n ih =>
      rw [List.range_succ, List.filterMap_append]
      apply ih.append
      cases hrange : dataRange total chunk n with
      | none =>
          -- the chunk has no rank before the count
          have hend : min (n * chunk) total = min ((n + 1) * chunk) total := by
            have hstart : ¬ n * chunk < min ((n + 1) * chunk) total := by
              intro hlt
              simp [dataRange, hlt] at hrange
            have hmul : (n + 1) * chunk = n * chunk + chunk := Nat.succ_mul n chunk
            omega
          rw [hend]
          simpa [hrange] using leads_nil (min ((n + 1) * chunk) total)
      | some range =>
          obtain ⟨hstart, hend, hlt, -⟩ := dataRange_eq hrange
          have hfrom : min (n * chunk) total = range.start := by omega
          have hsingle : Leads range.start [range] range.end := Tiles.single range hlt.le
          rw [hfrom, ← hend]
          simpa [hrange] using hsingle

theorem mem_dataRanges {total chunk n : Nat} {range : FetcherRange}
    (h : range ∈ (List.range n).filterMap (dataRange total chunk)) :
    range.role = .data ∧ chunk ∣ range.start ∧ range.end ≤ total := by
  obtain ⟨i, -, hi⟩ := List.mem_filterMap.mp h
  obtain ⟨hstart, hend, -, hrole⟩ := dataRange_eq hi
  have hdvd : chunk ∣ range.start := hstart ▸ Nat.dvd_mul_left chunk i
  exact ⟨hrole, hdvd, by omega⟩

/-! ## the plan -/

/-- The owner of the end comes last, after data ranges that start on whole pages. -/
structure Planned (totalCount : Option Nat) (pageSize : Nat) (before : List FetcherRange)
    (owner : FetcherRange) : Prop where
  leads : Leads 0 before owner.start
  start : owner.start = 0 ∨ totalCount = some owner.start
  openEnded : owner.OpenEnded
  data : ∀ range ∈ before, range.role = .data ∧ pageSize ∣ range.start ∧ range.end ≤ owner.start

section plan

variable {limit totalCount : Option Nat} {pageSize : Nat}

theorem planned_alone (owner : FetcherRange) (hstart : owner.start = 0)
    (hopen : owner.OpenEnded) : Planned totalCount pageSize [] owner where
  leads := by
    rw [hstart]
    exact leads_nil 0
  start := .inl hstart
  openEnded := hopen
  data := by simp

theorem determineFetcherCount_pos (totalItems pageSize concurrency : Nat) :
    0 < determineFetcherCount totalItems pageSize concurrency := by
  unfold determineFetcherCount
  omega

theorem requestPageSize_pos (profile : PhotoStreamProfile) (defaultPageSize : Nat) :
    0 < profile.requestPageSize defaultPageSize := by
  cases profile <;> grind [PhotoStreamProfile.requestPageSize, downloadStreamPageSize]

theorem buildEnumerationPlan_planned (limit totalCount : Option Nat) (hpage : 0 < pageSize)
    (profile : PhotoStreamProfile) :
    ∃ before owner, buildEnumerationPlan limit totalCount pageSize profile = before ++ [owner] ∧
      Planned totalCount pageSize before owner := by
  cases limit with
  | some limit =>
      exact ⟨[], ⟨0, u64Max, some limit, .limitProbe⟩, rfl,
        planned_alone _ rfl ⟨rfl, .inr rfl⟩⟩
  | none =>
      cases totalCount with
      | none =>
          exact ⟨[], ⟨0, u64Max, none, .tailProof⟩, rfl, planned_alone _ rfl ⟨rfl, .inl rfl⟩⟩
      | some total =>
          simp only [buildEnumerationPlan]
          split
          · exact ⟨[], ⟨0, u64Max, none, .tailProof⟩, rfl, planned_alone _ rfl ⟨rfl, .inl rfl⟩⟩
          · generalize hnum : (if 0 < total then determineFetcherCount total pageSize
              (profile.fetcherConcurrency * 2) else 1) = numFetchers
            have hpos : 0 < numFetchers := by
              have := determineFetcherCount_pos total pageSize (profile.fetcherConcurrency * 2)
              split at hnum <;> omega
            have hreach := le_numFetchers_mul_chunk total hpos hpage
            have hleads := dataRanges_lead total
              (divCeil (divCeil total numFetchers) pageSize * pageSize) numFetchers
            rw [Nat.min_eq_right hreach] at hleads
            exact ⟨_, _, rfl, hleads, .inr rfl, ⟨rfl, .inl rfl⟩, fun range hmem =>
              have hdata := mem_dataRanges hmem
              ⟨hdata.1, Nat.dvd_trans (Nat.dvd_mul_left _ _) hdata.2.1, hdata.2.2⟩⟩

/-! ## what a plan promises -/

variable {before : List FetcherRange} {owner : FetcherRange}

theorem Planned.start_le (h : Planned totalCount pageSize before owner)
    (htotal : ∀ total ∈ totalCount, total ≤ u64Max) : owner.start ≤ u64Max := by
  cases h.start with
  | inl hzero => simp [hzero]
  | inr hcount => exact htotal _ hcount

/-- The data ranges and their owner lead from rank 0 to the open end. -/
theorem Planned.leads_all (h : Planned totalCount pageSize before owner)
    (htotal : ∀ total ∈ totalCount, total ≤ u64Max) : Leads 0 (before ++ [owner]) u64Max := by
  have hend := h.openEnded.1
  have hle := h.start_le htotal
  have hlast : Leads owner.start [owner] owner.end := .single owner (by omega)
  rw [hend] at hlast
  exact h.leads.append hlast

/-- The ranges of a list share out the ranks. -/
structure Shares (pageSize : Nat) (ranges : List FetcherRange) : Prop where
  nonempty : ranges ≠ []
  fromZero : ∀ range ∈ ranges.head?, range.start = 0
  contiguous : ranges.IsChain (fun range next => range.end = next.start)
  disjoint : ranges.Pairwise (fun range later =>
    ∀ rank, ¬ (range.Contains rank ∧ later.Contains rank))
  covered : ∀ rank, Covered ranges rank ↔ rank < u64Max
  /-- One range has the open end. -/
  oneOwner : ranges.countP (fun range => range.OpenEnded) = 1
  others : ∀ range ∈ ranges, ¬ range.OpenEnded → range.role = .data
  aligned : ranges.IsChain (fun range next =>
    range.role = .data → next.role = .data → pageSize ∣ range.end)

theorem Planned.covered_iff (h : Planned totalCount pageSize before owner)
    (htotal : ∀ total ∈ totalCount, total ≤ u64Max) (rank : Nat) :
    Covered (before ++ [owner]) rank ↔ rank < u64Max := by
  have hleads := h.leads_all htotal
  constructor
  · intro ⟨range, hmem, hrank⟩
    have hend := (hleads.within hmem).2
    have := hrank.2
    omega
  · intro hrank
    exact hleads.covers (Nat.zero_le _) hrank

theorem Planned.oneOwner (h : Planned totalCount pageSize before owner) :
    (before ++ [owner]).countP (fun range => range.OpenEnded) = 1 := by
  have hbefore : before.countP (fun range => range.OpenEnded) = 0 := by
    apply List.countP_eq_zero.mpr
    intro range hmem
    simp [FetcherRange.OpenEnded, (h.data range hmem).1]
  simp [List.countP_append, hbefore, h.openEnded]

theorem Planned.aligned (h : Planned totalCount pageSize before owner)
    (htotal : ∀ total ∈ totalCount, total ≤ u64Max) :
    (before ++ [owner]).IsChain (fun range next =>
      range.role = .data → next.role = .data → pageSize ∣ range.end) := by
  have hchain := List.isChain_iff_forall_rel_of_append_cons_cons.mp (h.leads_all htotal).isChain
  apply List.isChain_iff_forall_rel_of_append_cons_cons.mpr
  intro range next l l' hl hrange hnext
  have hmem : next ∈ before ++ [owner] := by simp [hl]
  cases List.mem_append.mp hmem with
  | inl hin =>
      rw [hchain hl]
      exact (h.data next hin).2.1
  | inr hlast =>
      -- the owner is no data range
      have hopen := h.openEnded.2
      simp_all

theorem Planned.shares (h : Planned totalCount pageSize before owner)
    (htotal : ∀ total ∈ totalCount, total ≤ u64Max) : Shares pageSize (before ++ [owner]) where
  nonempty := by simp
  fromZero := fun range hrange => (h.leads_all htotal).head hrange
  contiguous := (h.leads_all htotal).isChain
  disjoint := by
    apply (h.leads_all htotal).pairwise.imp
    intro range later hle rank hboth
    have hin := hboth.1.2
    have hlater := hboth.2.1
    omega
  covered := h.covered_iff htotal
  oneOwner := h.oneOwner
  others := by
    intro range hmem hnot
    cases List.mem_append.mp hmem with
    | inl hin => exact (h.data range hin).1
    | inr hlast =>
        rw [List.mem_singleton.mp hlast] at hnot
        exact absurd h.openEnded hnot
  aligned := h.aligned htotal

/-- Before the largest count the end of the owner is the only open one. -/
theorem Planned.oneEnd (h : Planned totalCount pageSize before owner)
    (htotal : ∀ total ∈ totalCount, total < u64Max) :
    (before ++ [owner]).countP (fun range => range.end = u64Max) = 1 := by
  have hstart : owner.start < u64Max := by
    cases h.start with
    | inl hzero => simp [hzero, u64Max]
    | inr hcount => exact htotal _ hcount
  have hbefore : before.countP (fun range => range.end = u64Max) = 0 := by
    apply List.countP_eq_zero.mpr
    intro range hmem
    have hend := (h.data range hmem).2.2
    have hne : range.end ≠ u64Max := by omega
    simp [hne]
  simp [List.countP_append, hbefore, h.openEnded.1]

end plan

/-- **Every plan shares out the ranks before the open end, and which ranks these are does not
depend on the profile.** -/
theorem plan_shares (limit totalCount : Option Nat) (defaultPageSize : Nat)
    (profile : PhotoStreamProfile) (htotal : ∀ total ∈ totalCount, total ≤ u64Max) :
    let plan (profile : PhotoStreamProfile) : List FetcherRange :=
      buildEnumerationPlan limit totalCount (profile.requestPageSize defaultPageSize) profile
    Shares (profile.requestPageSize defaultPageSize) (plan profile) ∧
      ((∀ total ∈ totalCount, total < u64Max) →
        (plan profile).countP (fun range => range.end = u64Max) = 1) ∧
      ∀ (profile' : PhotoStreamProfile) (rank : Nat),
        Covered (plan profile) rank ↔ Covered (plan profile') rank := by
  intro plan
  have hshares : ∀ p : PhotoStreamProfile,
      Shares (p.requestPageSize defaultPageSize) (plan p) := by
    intro p
    obtain ⟨before, owner, hplan, h⟩ := buildEnumerationPlan_planned limit totalCount
      (requestPageSize_pos p defaultPageSize) p
    simp only [plan, hplan]
    exact h.shares htotal
  constructor
  · exact hshares profile
  constructor
  · intro hsmall
    obtain ⟨before, owner, hplan, h⟩ := buildEnumerationPlan_planned limit totalCount
      (requestPageSize_pos profile defaultPageSize) profile
    simp only [plan, hplan]
    exact h.oneEnd hsmall
  · intro profile' rank
    rw [(hshares profile).covered rank, (hshares profile').covered rank]

/-- 1001 assets in pages of 100 for three fetchers, which make six chunks. -/
theorem plan_shares_chunks :
    (∀ total ∈ some 1001, total ≤ u64Max) ∧
      Shares 100 (buildEnumerationPlan none (some 1001) 100 (.fastEnumeration 3)) := by
  have htotal : ∀ total ∈ some 1001, total ≤ u64Max := by simp [u64Max]
  exact ⟨htotal, (plan_shares none (some 1001) 100 (.fastEnumeration 3) htotal).1⟩

end Kei.PhotoStream
