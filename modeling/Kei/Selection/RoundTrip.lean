import Kei.Selection
import Mathlib.Algebra.Order.BigOperators.Group.List

/-!
# Kei.Selection.RoundTrip

Writing a parsed selector back as raw entries and parsing those again.

The entry grammar is stated once, as the relation `Reads`, and `classify` is
shown to decide it.  From it follow the names a parser can hold (`Valid`), and
that the rendered form of a valid collection is collected again unchanged.
One kind of name is lost: a literal with white space right after the escape,
because the renderer does not escape it and the parser trims it.
-/

namespace Kei.Selection

open Str
open Fallible

/-! ## the entry grammar -/

/-- What a trimmed entry means. -/
inductive Reads (g : Grammar) (s : String) : Entry → Prop where
  /-- `=name` -/
  | literal {n : String} : s.toList = '=' :: n.toList → n ≠ "" → g.checkName n = .ok () →
      Reads g s (.includes n)
  /-- `!name` -/
  | excludeName {n : String} : s.toList = '!' :: n.toList → n ≠ "" → startsWith n '=' = false →
      g.checkName n = .ok () → g.sentinel? n = none → Reads g s (.excludes n)
  /-- `!word` -/
  | excludeWord {n w : String} : s.toList = '!' :: n.toList → n ≠ "" → startsWith n '=' = false →
      g.checkName n = .ok () → g.sentinel? n = some (w, .recorded) → Reads g s (.excludes w)
  /-- `name` -/
  | name : s ≠ "" → startsWith s '=' = false → startsWith s '!' = false → g.checkName s = .ok () →
      g.sentinel? s = none → Reads g s (.includes s)
  /-- `word` -/
  | word {w : String} {k : SentinelExclusion} : s ≠ "" → startsWith s '=' = false →
      startsWith s '!' = false → g.checkName s = .ok () → g.sentinel? s = some (w, k) →
      Reads g s (.sentinel w)

theorem selectorToken_eq_ok {raw flag : String} {t : SelectorToken} :
    selectorToken raw flag = .ok t ↔
      (raw.toList = '=' :: t.name.toList ∧ t.name ≠ "" ∧ t.exclude = false ∧ t.escaped = true) ∨
      (startsWith raw '=' = false ∧ raw.toList = '!' :: t.name.toList ∧ t.name ≠ "" ∧
        startsWith t.name '=' = false ∧ t.exclude = true ∧ t.escaped = false) ∨
      (startsWith raw '=' = false ∧ startsWith raw '!' = false ∧ raw = t.name ∧ t.name ≠ "" ∧
        t.exclude = false ∧ t.escaped = false) := by
  obtain ⟨name, exclude, escaped⟩ := t
  unfold selectorToken
  cases heq : stripPrefix raw '=' with
  | some literal =>
      have hraw := stripPrefix_eq_some.mp heq
      have hst : startsWith raw '=' = true := by simp [startsWith, hraw]
      simp only [bind_eq_ok, ensure_eq_ok, pure_eq_ok, SelectorToken.mk.injEq, exists_const, hraw,
        List.cons.injEq, true_and, String.toList_inj, hst, Bool.true_eq_false, false_and, or_false]
      constructor
      · rintro ⟨hne, rfl, rfl, rfl⟩; exact ⟨rfl, hne, rfl, rfl⟩
      · rintro ⟨rfl, hne, rfl, rfl⟩; exact ⟨hne, rfl, rfl, rfl⟩
  | none =>
      have hst := stripPrefix_eq_none.mp heq
      have hraw : ∀ n : String, raw.toList ≠ '=' :: n.toList := by
        intro n hn
        simp [startsWith, hn] at hst
      cases hex : stripPrefix raw '!' with
      | some r =>
          have hr := stripPrefix_eq_some.mp hex
          have hsx : startsWith raw '!' = true := by simp [startsWith, hr]
          have hdiff : ('!' = '=') = False := by decide
          simp only [bind_eq_ok, ensure_eq_ok, pure_eq_ok, SelectorToken.mk.injEq, exists_const,
            false_and, hst, hsx, hr, hdiff, List.cons.injEq, true_and, String.toList_inj, false_or,
            Bool.true_eq_false, or_false]
          constructor
          · rintro ⟨hne, heqf, rfl, rfl, rfl⟩; exact ⟨rfl, hne, heqf, rfl, rfl⟩
          · rintro ⟨rfl, hne, heqf, rfl, rfl⟩; exact ⟨hne, heqf, rfl, rfl, rfl⟩
      | none =>
          have hsx := stripPrefix_eq_none.mp hex
          have hbang : ∀ n : String, raw.toList ≠ '!' :: n.toList := by
            intro n hn
            simp [startsWith, hn] at hsx
          simp only [bind_eq_ok, ensure_eq_ok, pure_eq_ok, SelectorToken.mk.injEq, exists_const,
            hraw, false_and, hst, hsx, hbang, true_and, false_or, and_false]
          constructor
          · rintro ⟨hne, rfl, rfl, rfl⟩; exact ⟨rfl, hne, rfl, rfl⟩
          · rintro ⟨rfl, hne, rfl, rfl⟩; exact ⟨hne, rfl, rfl, rfl⟩

variable {g : Grammar} {entry : String}

theorem classify_eq_ok {x : Entry} : classify g entry = .ok x ↔ Reads g (trim entry) x := by
  unfold classify
  simp only [bind_eq_ok, ensure_eq_ok, exists_const, selectorToken_eq_ok]
  constructor
  · rintro ⟨-, ⟨n, ex, esc⟩, htok, ⟨⟩, hcheck, h⟩
    rcases htok with ⟨hl, hne, rfl, rfl⟩ | ⟨-, hl, hne, hst, rfl, rfl⟩ | ⟨he, hb, hl, hne, rfl, rfl⟩
    · simp only [if_true, Bool.false_eq_true, if_false, pure_eq_ok] at h
      subst h
      exact .literal hl hne hcheck
    · cases hs : g.sentinel? n with
      | none =>
          simp only [Bool.false_eq_true, if_false, hs, if_true, pure_eq_ok] at h
          subst h
          exact .excludeName hl hne hst hcheck hs
      | some p =>
          obtain ⟨w, k⟩ := p
          cases k with
          | rejected m => simp [hs] at h
          | recorded =>
              simp only [Bool.false_eq_true, if_false, hs, if_true, pure_eq_ok] at h
              subst h
              exact .excludeWord hl hne hst hcheck hs
    · simp only at hl hne hcheck
      subst hl
      cases hs : g.sentinel? (trim entry) with
      | none =>
          simp only [Bool.false_eq_true, if_false, hs, pure_eq_ok] at h
          subst h
          exact .name hne he hb hcheck hs
      | some p =>
          obtain ⟨w, k⟩ := p
          have hx : .sentinel w = x := by
            cases k with
            | rejected m => simpa [hs] using h
            | recorded => simpa [hs] using h
          subst hx
          exact .word hne he hb hcheck hs
  · have hne_of {c : Char} {n : String} (hl : (trim entry).toList = c :: n.toList) :
        trim entry ≠ "" := by
      intro h; rw [h] at hl; simp at hl
    have hst_of {n : String} (hl : (trim entry).toList = '!' :: n.toList) :
        startsWith (trim entry) '=' = false := by
      simp [startsWith, hl]
    intro h
    cases h with
    | @literal n hl hne hcheck =>
        exact ⟨hne_of hl, ⟨n, false, true⟩, .inl ⟨hl, hne, rfl, rfl⟩, (), hcheck, by simp⟩
    | @excludeName n hl hne hst hcheck hs =>
        exact ⟨hne_of hl, ⟨n, true, false⟩, .inr (.inl ⟨hst_of hl, hl, hne, hst, rfl, rfl⟩), (),
          hcheck, by simp [hs]⟩
    | @excludeWord n w hl hne hst hcheck hs =>
        exact ⟨hne_of hl, ⟨n, true, false⟩, .inr (.inl ⟨hst_of hl, hl, hne, hst, rfl, rfl⟩), (),
          hcheck, by simp [hs]⟩
    | name hne he hb hcheck hs =>
        exact ⟨hne, ⟨trim entry, false, false⟩, .inr (.inr ⟨he, hb, rfl, hne, rfl, rfl⟩), (),
          hcheck, by simp [hs]⟩
    | @word w k hne he hb hcheck hs =>
        refine ⟨hne, ⟨trim entry, false, false⟩, .inr (.inr ⟨he, hb, rfl, hne, rfl, rfl⟩), (),
          hcheck, ?_⟩
        cases k with
        | rejected m => simp [hs]
        | recorded => simp [hs]

/-! ## the names a parser can hold -/

/-- Every sentinel word of the grammar reads as itself. -/
def Plain (g : Grammar) : Prop :=
  ∀ s ∈ g.sentinels, g.sentinel? s.1 = some s ∧ s.1 ≠ "" ∧ NoLead s.1.toList ∧
    NoTrail s.1.toList ∧ startsWith s.1 '=' = false ∧ startsWith s.1 '!' = false ∧
    g.checkName s.1 = .ok ()

instance (g : Grammar) : Decidable (Plain g) := inferInstanceAs (Decidable (∀ s ∈ g.sentinels, _))

theorem albumGrammar_plain : Plain albumGrammar := by decide

theorem smartFolderGrammar_plain : Plain smartFolderGrammar := by decide

theorem libraryGrammar_plain : Plain libraryGrammar := by decide

/-- A name that can be included. -/
structure Includable (g : Grammar) (n : String) : Prop where
  nonempty : n ≠ ""
  noTrail : NoTrail n.toList
  check : g.checkName n = .ok ()

/-- A name that can be excluded. -/
structure Excludable (g : Grammar) (n : String) : Prop where
  nonempty : n ≠ ""
  noTrail : NoTrail n.toList
  noEscape : startsWith n '=' = false
  check : g.checkName n = .ok ()
  sentinel : g.sentinel? n = none ∨ g.sentinel? n = some (n, .recorded)

theorem toList_ne_nil {s : String} (h : s ≠ "") : s.toList ≠ [] := by
  intro hl
  exact h (String.toList_inj.mp hl)

theorem sentinel?_mem {n w : String} {k : SentinelExclusion} (h : g.sentinel? n = some (w, k)) :
    (w, k) ∈ g.sentinels :=
  List.mem_of_find?_eq_some h

theorem mem_words {n w : String} {k : SentinelExclusion} (h : g.sentinel? n = some (w, k)) :
    w ∈ g.words :=
  List.mem_map_of_mem (f := Prod.fst) (sentinel?_mem h)

theorem reads_includable {s n : String} (hs : NoTrail s.toList) (h : Reads g s (.includes n)) :
    Includable g n := by
  cases h with
  | literal hl hne hcheck =>
      refine ⟨hne, ?_, hcheck⟩
      rw [hl] at hs
      exact (noTrail_cons (toList_ne_nil hne)).mp hs
  | name hne he hb hcheck hsent => exact ⟨hne, hs, hcheck⟩

theorem reads_excludable (hg : Plain g) {s n : String} (hs : NoTrail s.toList)
    (h : Reads g s (.excludes n)) : Excludable g n := by
  cases h with
  | excludeName hl hne hst hcheck hsent =>
      refine ⟨hne, ?_, hst, hcheck, .inl hsent⟩
      rw [hl] at hs
      exact (noTrail_cons (toList_ne_nil hne)).mp hs
  | excludeWord hl hne hst hcheck hsent =>
      obtain ⟨hself, hwne, -, htrail, hwst, -, hwcheck⟩ := hg _ (sentinel?_mem hsent)
      exact ⟨hwne, htrail, hwst, hwcheck, .inr hself⟩

theorem reads_word {s w : String} (h : Reads g s (.sentinel w)) : w ∈ g.words := by
  cases h with
  | word hne he hb hcheck hsent => exact mem_words hsent

/-! ## rendered entries read back -/

variable {n : String}

theorem Excludable.classify (h : Excludable g n) : classify g ("!" ++ n) = .ok (.excludes n) := by
  have hl : ("!" ++ n).toList = '!' :: n.toList := by simp
  have htrim : trim ("!" ++ n) = "!" ++ n := by
    refine trim_of_noLead_noTrail ?_ ?_
    · rw [hl]; intro c hc; cases hc; decide
    · rw [hl]; exact (noTrail_cons (toList_ne_nil h.nonempty)).mpr h.noTrail
  rw [classify_eq_ok, htrim]
  rcases h.sentinel with hs | hs
  · exact .excludeName hl h.nonempty h.noEscape h.check hs
  · exact .excludeWord hl h.nonempty h.noEscape h.check hs

theorem Plain.classify (hg : Plain g) {w : String} (hw : w ∈ g.words) :
    classify g w = .ok (.sentinel w) := by
  obtain ⟨⟨w', k⟩, hmem, rfl⟩ := List.mem_map.mp hw
  obtain ⟨hself, hne, hlead, htrail, he, hb, hcheck⟩ := hg _ hmem
  rw [classify_eq_ok, trim_of_noLead_noTrail hlead htrail]
  exact .word hne he hb hcheck hself

/-- The renderer's test finds exactly the names the parser takes for a sentinel. -/
theorem any_words : g.words.any (eqIgnoreAsciiCase n) = (g.sentinel? n).isSome := by
  rw [Grammar.words, Grammar.sentinel?, List.any_map, List.isSome_find?]
  rfl

theorem escapeIfNeeded_cases (g : Grammar) (n : String) :
    (escapeIfNeeded n g.words = "=" ++ n ∧
      (startsWith n '!' = true ∨ startsWith n '=' = true ∨ ∃ s, g.sentinel? n = some s)) ∨
    (escapeIfNeeded n g.words = n ∧ startsWith n '!' = false ∧ startsWith n '=' = false ∧
      g.sentinel? n = none) := by
  unfold escapeIfNeeded
  rw [any_words]
  split
  · next h =>
      refine .inl ⟨rfl, ?_⟩
      simpa [Option.isSome_iff_exists, or_assoc] using h
  · next h => exact .inr ⟨rfl, by simpa [and_assoc] using h⟩

theorem noLead_of_escaped (hg : Plain g)
    (h : startsWith n '!' = true ∨ startsWith n '=' = true ∨ ∃ s, g.sentinel? n = some s) :
    NoLead n.toList := by
  intro c hc
  rcases h with h | h | ⟨⟨w, k⟩, hs⟩
  · simp only [startsWith, hc, beq_iff_eq, Option.some.injEq] at h
    subst h
    decide
  · simp only [startsWith, hc, beq_iff_eq, Option.some.injEq] at h
    subst h
    decide
  · have heq : eqIgnoreAsciiCase n w = true := by
      unfold Grammar.sentinel? at hs
      simpa using List.find?_some hs
    obtain ⟨-, -, hlead, -⟩ := hg _ (sentinel?_mem hs)
    exact noLead_of_eqIgnoreAsciiCase heq hlead c hc

theorem trim_escaped (hne : n ≠ "") (ht : NoTrail n.toList) : trim ("=" ++ n) = "=" ++ n := by
  have hl : ("=" ++ n).toList = '=' :: n.toList := by simp
  refine trim_of_noLead_noTrail ?_ ?_
  · rw [hl]; intro c hc; cases hc; decide
  · rw [hl]; exact (noTrail_cons (toList_ne_nil hne)).mpr ht

/-- An included name without white space at its front reads back from its raw entry. -/
theorem Includable.classify (h : Includable g n) (hlead : NoLead n.toList) :
    classify g (escapeIfNeeded n g.words) = .ok (.includes n) := by
  rw [classify_eq_ok]
  rcases escapeIfNeeded_cases g n with ⟨he, -⟩ | ⟨he, hb, heq, hs⟩
  · rw [he, trim_escaped h.nonempty h.noTrail]
    exact .literal (by simp) h.nonempty h.check
  · rw [he, trim_of_noLead_noTrail hlead h.noTrail]
    exact .name h.nonempty heq hb h.check hs

/-! ## what the loop collects -/

theorem insertUnique_eq_ok {set set' : BTreeSet String} {value flag displayName : String} :
    insertUnique set value flag displayName = .ok set' ↔
      value ∉ set ∧ set' = set.insert value := by
  unfold insertUnique
  by_cases h : value ∈ set
  · simp [h]
  · simp [h, eq_comm]

/-- What the parsers' loop can hold. -/
structure Valid (g : Grammar) (c : Collected) : Prop where
  words : ∀ w ∈ c.words, w ∈ g.words
  included : ∀ n ∈ c.included, Includable g n
  excluded : ∀ n ∈ c.excluded, Excludable g n

theorem valid_new (g : Grammar) : Valid g Collected.new :=
  ⟨fun _ h => absurd h (BTreeSet.not_mem_empty _), fun _ h => absurd h (BTreeSet.not_mem_empty _),
    fun _ h => absurd h (BTreeSet.not_mem_empty _)⟩

theorem collectEntry_eq_ok {c c' : Collected} :
    collectEntry g c entry = .ok c' ↔ ∃ e, Reads g (trim entry) e ∧ record g c e = .ok c' := by
  unfold collectEntry
  simp only [bind_eq_ok, classify_eq_ok]

theorem record_include {c c' : Collected} :
    record g c (.includes n) = .ok c' ↔
      n ∉ c.included ∧ c' = { c with included := c.included.insert n } := by
  simp only [record, bind_eq_ok, insertUnique_eq_ok, pure_eq_ok]
  constructor
  · rintro ⟨_, ⟨hn, rfl⟩, rfl⟩; exact ⟨hn, rfl⟩
  · rintro ⟨hn, rfl⟩; exact ⟨_, ⟨hn, rfl⟩, rfl⟩

theorem record_exclude {c c' : Collected} :
    record g c (.excludes n) = .ok c' ↔
      n ∉ c.excluded ∧ c' = { c with excluded := c.excluded.insert n } := by
  simp only [record, bind_eq_ok, insertUnique_eq_ok, pure_eq_ok]
  constructor
  · rintro ⟨_, ⟨hn, rfl⟩, rfl⟩; exact ⟨hn, rfl⟩
  · rintro ⟨hn, rfl⟩; exact ⟨_, ⟨hn, rfl⟩, rfl⟩

theorem record_sentinel {c c' : Collected} {w : String} :
    record g c (.sentinel w) = .ok c' ↔ c' = { c with words := c.words.insert w } := by
  simp [record, eq_comm]

theorem collectEntry_valid (hg : Plain g) (c : Collected) (entry : String) (c' : Collected)
    (h : collectEntry g c entry = .ok c') (hc : Valid g c) : Valid g c' := by
  obtain ⟨e, hread, hrec⟩ := collectEntry_eq_ok.mp h
  cases e with
  | sentinel w =>
      rw [record_sentinel] at hrec
      subst hrec
      refine ⟨fun x hx => ?_, hc.included, hc.excluded⟩
      rcases BTreeSet.mem_insert.mp hx with rfl | hx
      · exact reads_word hread
      · exact hc.words x hx
  | excludes n =>
      obtain ⟨-, rfl⟩ := record_exclude.mp hrec
      refine ⟨hc.words, hc.included, fun x hx => ?_⟩
      rcases BTreeSet.mem_insert.mp hx with rfl | hx
      · exact reads_excludable hg (noTrail_trim entry) hread
      · exact hc.excluded x hx
  | includes n =>
      obtain ⟨-, rfl⟩ := record_include.mp hrec
      refine ⟨hc.words, fun x hx => ?_, hc.excluded⟩
      rcases BTreeSet.mem_insert.mp hx with rfl | hx
      · exact reads_includable (noTrail_trim entry) hread
      · exact hc.included x hx

variable {c : Collected} {raw : List String}

theorem collect_valid (hg : Plain g) (h : collect g raw = .ok c) : Valid g c :=
  foldlM_preserves (collectEntry_valid hg) raw Collected.new c h (valid_new g)

theorem mem_included_foldlM {c c' : Collected} (h : raw.foldlM (collectEntry g) c = .ok c')
    (n : String) :
    n ∈ c'.included ↔ n ∈ c.included ∨ ∃ e ∈ raw, Reads g (trim e) (.includes n) := by
  induction raw generalizing c with
  | nil =>
      rw [List.foldlM_nil, pure_eq_ok] at h
      subst h
      simp
  | cons entry raw ih =>
      obtain ⟨m, hm, hrest⟩ := foldlM_cons_eq_ok.mp h
      obtain ⟨e, hread, hrec⟩ := collectEntry_eq_ok.mp hm
      have huniq (x : Entry) (hx : Reads g (trim entry) x) : x = e :=
        Except.ok.inj ((classify_eq_ok.mpr hx).symm.trans (classify_eq_ok.mpr hread))
      have hhead : n ∈ m.included ↔ n ∈ c.included ∨ Reads g (trim entry) (.includes n) := by
        cases e with
        | sentinel w =>
            rw [record_sentinel] at hrec
            subst hrec
            exact ⟨.inl, fun h => h.resolve_right (fun hx => by cases huniq _ hx)⟩
        | excludes k =>
            obtain ⟨-, rfl⟩ := record_exclude.mp hrec
            exact ⟨.inl, fun h => h.resolve_right (fun hx => by cases huniq _ hx)⟩
        | includes k =>
            obtain ⟨-, rfl⟩ := record_include.mp hrec
            rw [BTreeSet.mem_insert]
            constructor
            · rintro (rfl | hn)
              · exact .inr hread
              · exact .inl hn
            · rintro (hn | hx)
              · exact .inr hn
              · cases huniq _ hx; exact .inl rfl
      rw [ih hrest, hhead]
      simp only [List.mem_cons, exists_eq_or_imp, or_assoc]

theorem mem_included (h : collect g raw = .ok c) (n : String) :
    n ∈ c.included ↔ ∃ e ∈ raw, Reads g (trim e) (.includes n) := by
  rw [mem_included_foldlM h n]
  simp [Collected.new]

theorem exists_reads_foldlM {c c' : Collected} (h : raw.foldlM (collectEntry g) c = .ok c') :
    ∀ e ∈ raw, ∃ x, Reads g (trim e) x := by
  induction raw generalizing c with
  | nil => intro e he; contradiction
  | cons entry raw ih =>
      obtain ⟨m, hm, hrest⟩ := foldlM_cons_eq_ok.mp h
      obtain ⟨x, hread, -⟩ := collectEntry_eq_ok.mp hm
      intro e he
      rcases List.mem_cons.mp he with rfl | he
      · exact ⟨x, hread⟩
      · exact ih hrest e he

/-! ## collecting a rendered collection -/

variable {l : List String}

theorem foldlM_collectEntry_map {f : String → String} {k : String → Entry}
    (h : ∀ n ∈ l, classify g (f n) = .ok (k n)) (c : Collected) :
    (l.map f).foldlM (collectEntry g) c = (l.map k).foldlM (record g) c := by
  induction l generalizing c with
  | nil => rfl
  | cons n l ih =>
      have hn := h n List.mem_cons_self
      have hstep : collectEntry g c (f n) = record g c (k n) := by
        rw [collectEntry, hn, ok_bind]
      rw [List.map_cons, List.map_cons, List.foldlM_cons, List.foldlM_cons, hstep]
      congr 1
      funext m
      exact ih (fun x hx => h x (List.mem_cons_of_mem n hx)) m

theorem foldlM_record_sentinels (ws : List String) (c : Collected) :
    (ws.map Entry.sentinel).foldlM (record g) c =
      .ok { c with words := c.words.insertAll ws } := by
  induction ws generalizing c with
  | nil => rfl
  | cons w ws ih =>
      rw [List.map_cons, List.foldlM_cons, record, ok_bind, ih]
      rfl

theorem not_mem_insert {n : String} {s : BTreeSet String} (hn : n ∉ l) (hl : ∀ x ∈ l, x ∉ s) :
    ∀ x ∈ l, x ∉ s.insert n := by
  intro x hx hmem
  rcases BTreeSet.mem_insert.mp hmem with rfl | hmem
  · exact hn hx
  · exact hl x hx hmem

theorem foldlM_record_includes (hl : l.Nodup) (hc : ∀ n ∈ l, n ∉ c.included) :
    (l.map Entry.includes).foldlM (record g) c =
      .ok { c with included := c.included.insertAll l } := by
  induction l generalizing c with
  | nil => rfl
  | cons n l ih =>
      obtain ⟨hn, hl⟩ := List.nodup_cons.mp hl
      have hstep : record g c (.includes n) =
          .ok { c with included := c.included.insert n } :=
        record_include.mpr ⟨hc n List.mem_cons_self, rfl⟩
      rw [List.map_cons, List.foldlM_cons, hstep, ok_bind, ih hl]
      · rfl
      · exact not_mem_insert hn (fun x hx => hc x (List.mem_cons_of_mem n hx))

theorem foldlM_record_excludes (hl : l.Nodup) (hc : ∀ n ∈ l, n ∉ c.excluded) :
    (l.map Entry.excludes).foldlM (record g) c =
      .ok { c with excluded := c.excluded.insertAll l } := by
  induction l generalizing c with
  | nil => rfl
  | cons n l ih =>
      obtain ⟨hn, hl⟩ := List.nodup_cons.mp hl
      have hstep : record g c (.excludes n) =
          .ok { c with excluded := c.excluded.insert n } :=
        record_exclude.mpr ⟨hc n List.mem_cons_self, rfl⟩
      rw [List.map_cons, List.foldlM_cons, hstep, ok_bind, ih hl]
      · rfl
      · exact not_mem_insert hn (fun x hx => hc x (List.mem_cons_of_mem n hx))

/-- The raw form of a collection: some sentinel words, then the names. -/
def render (g : Grammar) (ws : List String) (included excluded : BTreeSet String) :
    List String :=
  ws ++ renderIncluded included g.words ++ renderExcluded excluded

variable {included excluded : BTreeSet String} {ws : List String}

/-- **Collecting a rendered collection gives it back**, when no included name
has white space at its front. -/
theorem collect_render (hg : Plain g) (hws : ∀ w ∈ ws, w ∈ g.words)
    (hinc : ∀ n ∈ included, Includable g n) (hlead : ∀ n ∈ included, NoLead n.toList)
    (hexc : ∀ n ∈ excluded, Excludable g n) :
    collect g (render g ws included excluded) =
      .ok ⟨BTreeSet.empty.insertAll ws, included, excluded⟩ := by
  have hw : ws.foldlM (collectEntry g) Collected.new =
      .ok { Collected.new with words := BTreeSet.empty.insertAll ws } := by
    have hmap := foldlM_collectEntry_map (g := g) (f := id) (k := Entry.sentinel) (l := ws)
      (fun w hmem => hg.classify (hws w hmem)) Collected.new
    rw [List.map_id] at hmap
    rw [hmap, foldlM_record_sentinels]
    rfl
  unfold collect render
  rw [foldlM_append_eq_ok]
  refine ⟨⟨BTreeSet.empty.insertAll ws, included, BTreeSet.empty⟩, ?_, ?_⟩
  · rw [foldlM_append_eq_ok]
    refine ⟨_, hw, ?_⟩
    rw [renderIncluded, foldlM_collectEntry_map (k := Entry.includes)
      (fun n hn => (hinc n hn).classify (hlead n hn)),
      foldlM_record_includes included.nodup_elems (fun n _ => BTreeSet.not_mem_empty n)]
    simp only [Collected.new, BTreeSet.insertAll_elems]
  · rw [renderExcluded, foldlM_collectEntry_map (k := Entry.excludes)
      (fun n hn => (hexc n hn).classify),
      foldlM_record_excludes excluded.nodup_elems (fun n _ => BTreeSet.not_mem_empty n)]
    simp only [BTreeSet.insertAll_elems]

/-! ## literals with white space after the escape -/

/-- A raw entry that escapes a name starting with white space, as in `= foo`. -/
def paddedLiteral (entry : String) : Bool :=
  match (trim entry).toList with
  | '=' :: c :: _ => isWhitespace c
  | _ => false

theorem paddedLiteral_iff :
    paddedLiteral entry = true ↔
      ∃ c rest, (trim entry).toList = '=' :: c :: rest ∧ isWhitespace c = true := by
  unfold paddedLiteral
  split
  · next c rest h => simp [h]
  · next h =>
      simp only [Bool.false_eq_true, false_iff]
      rintro ⟨c, rest, hl, -⟩
      exact h c rest hl

/-- An entry includes a name with white space at its front exactly when it is
a padded literal. -/
theorem reads_padded {x : Entry} (h : Reads g (trim entry) x) :
    paddedLiteral entry = true ↔ ∃ n, x = .includes n ∧ ¬ NoLead n.toList := by
  rw [paddedLiteral_iff]
  constructor
  · rintro ⟨c, rest, hl, hc⟩
    have hst : startsWith (trim entry) '=' = true := by simp [startsWith, hl]
    cases h with
    | @literal n hn hne hcheck =>
        refine ⟨n, rfl, fun hlead => ?_⟩
        rw [hl, List.cons.injEq] at hn
        rw [← hn.2] at hlead
        have := hlead c rfl
        simp [hc] at this
    | excludeName hn => rw [hl] at hn; simp at hn
    | excludeWord hn => rw [hl] at hn; simp at hn
    | name hne he => simp [he] at hst
    | word hne he => simp [he] at hst
  · rintro ⟨n, rfl, hlead⟩
    cases h with
    | literal hn hne hcheck =>
        cases hc : n.toList with
        | nil => exact absurd (by simp [NoLead, hc]) hlead
        | cons c rest =>
            refine ⟨c, rest, by rw [hn, hc], ?_⟩
            rw [hc] at hlead
            simpa [NoLead] using hlead
    | name hne he hb hcheck hs => exact absurd (noLead_trim entry) hlead

/-- A collection has a name with white space at its front exactly when some
entry was a padded literal. -/
theorem collect_unpadded_iff (h : collect g raw = .ok c) :
    (∀ n ∈ c.included, NoLead n.toList) ↔ ∀ e ∈ raw, paddedLiteral e = false := by
  constructor
  · intro hlead e he
    obtain ⟨x, hx⟩ := exists_reads_foldlM h e he
    refine Bool.eq_false_iff.mpr (fun hp => ?_)
    obtain ⟨n, rfl, hn⟩ := (reads_padded hx).mp hp
    exact hn (hlead n ((mem_included h n).mpr ⟨e, he, hx⟩))
  · intro hp n hn
    obtain ⟨e, he, hx⟩ := (mem_included h n).mp hn
    refine Classical.byContradiction (fun hlead => ?_)
    have hpad := (reads_padded hx).mpr ⟨n, rfl, hlead⟩
    rw [hp e he] at hpad
    exact Bool.noConfusion hpad

/-- A padded name that a re-parse holds comes from a longer padded name: the
re-parse trimmed it. -/
theorem exists_longer_padded (hg : Plain g) (hws : ∀ w ∈ ws, w ∈ g.words)
    (hinc : ∀ n ∈ included, Includable g n) (hexc : ∀ n ∈ excluded, Excludable g n)
    (h : collect g (render g ws included excluded) = .ok c) (hn : n ∈ c.included)
    (hlead : ¬ NoLead n.toList) :
    ∃ m ∈ included, ¬ NoLead m.toList ∧ n.toList.length < m.toList.length := by
  obtain ⟨e, he, hread⟩ := (mem_included h n).mp hn
  have hclass := classify_eq_ok.mpr hread
  rw [render, List.mem_append, List.mem_append] at he
  rcases he with (he | he) | he
  · rw [hg.classify (hws e he)] at hclass
    simp at hclass
  · obtain ⟨m, hm, rfl⟩ := List.mem_map.mp he
    by_cases hml : NoLead m.toList
    · rw [(hinc m hm).classify hml] at hclass
      cases hclass
      exact absurd hml hlead
    · refine ⟨m, hm, hml, ?_⟩
      rcases escapeIfNeeded_cases g m with ⟨-, hesc⟩ | ⟨hesc, hb, heq, hs⟩
      · exact absurd (noLead_of_escaped hg hesc) hml
      · rw [hesc] at hread
        have hlt := length_trim_lt hml
        cases hread with
        | literal hl => rw [hl, List.length_cons] at hlt; omega
        | name => exact hlt
  · obtain ⟨m, hm, rfl⟩ := List.mem_map.mp he
    rw [(hexc m hm).classify] at hclass
    simp at hclass

/-- **A padded name is never restored**: the re-parse holds other names. -/
theorem included_ne_of_padded (hg : Plain g) (hws : ∀ w ∈ ws, w ∈ g.words)
    (hinc : ∀ n ∈ included, Includable g n) (hexc : ∀ n ∈ excluded, Excludable g n)
    (hpad : ∃ n ∈ included, ¬ NoLead n.toList)
    (h : collect g (render g ws included excluded) = .ok c) : c.included ≠ included := by
  intro heq
  -- Each padded name would come from a longer one, without end.
  have hgrow : ∀ k, ∃ n ∈ included, ¬ NoLead n.toList ∧ k ≤ n.toList.length := by
    intro k
    induction k with
    | zero =>
        obtain ⟨n, hn, hl⟩ := hpad
        exact ⟨n, hn, hl, Nat.zero_le _⟩
    | succ k ih =>
        obtain ⟨n, hn, hl, hk⟩ := ih
        obtain ⟨m, hm, hml, hlt⟩ :=
          exists_longer_padded hg hws hinc hexc h (heq ▸ hn) hl
        exact ⟨m, hm, hml, by omega⟩
  obtain ⟨n, hn, -, hk⟩ := hgrow ((included.elems.map (·.toList.length)).sum + 1)
  have hle : n.toList.length ≤ (included.elems.map (·.toList.length)).sum :=
    List.single_le_sum (fun _ _ => Nat.zero_le _) _ (List.mem_map_of_mem hn)
  omega

/-! ## the three selectors -/

theorem contradictionCheck_eq_ok {category : String} {u : Unit} :
    contradictionCheck category included excluded = .ok u ↔ ∀ n ∈ included, n ∉ excluded := by
  have hnil : included.intersection excluded = [] ↔ ∀ n ∈ included, n ∉ excluded := by
    simp [BTreeSet.intersection, List.filter_eq_nil_iff, BTreeSet.mem_def]
  unfold contradictionCheck
  cases h : included.intersection excluded with
  | nil => simpa using hnil.mp h
  | cons n l =>
      rw [h] at hnil
      simpa using hnil

@[simp] theorem has_mk {words included excluded : BTreeSet String} {w : String} :
    (Collected.mk words included excluded).has w = decide (w ∈ words) := rfl

/-- One selector category: its grammar, what its parser makes of a collection,
and the collection that a selector's raw form spells. -/
structure Category (σ : Type) where
  grammar : Grammar
  outcome : Collected → Except String σ
  words : σ → List String
  names : σ → BTreeSet String
  excluded : σ → ExcludeSet

/-- The raw entries that spell a selector. -/
def Category.rendered (k : Category σ) (s : σ) : List String :=
  render k.grammar (k.words s) (k.names s) (k.excluded s)

/-- A selector spells the names it was made of, and is made again from them. -/
structure Category.Lawful (k : Category σ) : Prop where
  plain : Plain k.grammar
  words : ∀ s, ∀ w ∈ k.words s, w ∈ k.grammar.words
  names : ∀ c s, k.outcome c = .ok s → k.names s = c.included
  excluded : ∀ c s, k.outcome c = .ok s → k.excluded s = c.excluded
  again : ∀ c s, k.outcome c = .ok s →
    k.outcome ⟨BTreeSet.empty.insertAll (k.words s), k.names s, k.excluded s⟩ = .ok s

/-- **A selector is parsed again from its raw form exactly when no entry it was
parsed from is a padded literal.** -/
theorem Category.Lawful.restored_iff {k : Category σ} (hk : k.Lawful) {s : σ}
    (hcol : collect k.grammar raw = .ok c) (hs : k.outcome c = .ok s) :
    (∃ c', collect k.grammar (k.rendered s) = .ok c' ∧ k.outcome c' = .ok s) ↔
      ∀ e ∈ raw, paddedLiteral e = false := by
  have hvalid := collect_valid hk.plain hcol
  have hinc : ∀ n ∈ k.names s, Includable k.grammar n := by
    rw [hk.names c s hs]; exact hvalid.included
  have hexc : ∀ n ∈ k.excluded s, Excludable k.grammar n := by
    rw [hk.excluded c s hs]; exact hvalid.excluded
  rw [← collect_unpadded_iff hcol, ← hk.names c s hs]
  constructor
  · rintro ⟨c', hcol', hs'⟩ n hn
    refine Classical.byContradiction (fun hlead => ?_)
    exact included_ne_of_padded hk.plain (hk.words s) hinc hexc ⟨n, hn, hlead⟩ hcol'
      (hk.names c' s hs').symm
  · intro hlead
    exact ⟨_, collect_render hk.plain (hk.words s) hinc hlead hexc, hk.again c s hs⟩

/- ### albums -/

/-- Albums as a category. -/
def albumCategory : Category AlbumSelector where
  grammar := albumGrammar
  outcome := albumOutcome
  words
    | .none => ["none"]
    | .all _ => ["all"]
    | .named _ _ => []
  names
    | .named included _ => included
    | _ => BTreeSet.empty
  excluded
    | .none => BTreeSet.empty
    | .all excluded => excluded
    | .named _ excluded => excluded

theorem albumOutcome_eq_ok {s : AlbumSelector} (h : albumOutcome c = .ok s) :
    (s = .none ∧ c.included = BTreeSet.empty ∧ c.excluded = BTreeSet.empty) ∨
    (s = .all c.excluded ∧ c.included = BTreeSet.empty) ∨
    (s = .named c.included c.excluded ∧ c.included ≠ BTreeSet.empty ∧
      ∀ n ∈ c.included, n ∉ c.excluded) := by
  obtain ⟨u, hcon, h⟩ := bind_eq_ok.mp h
  rw [contradictionCheck_eq_ok] at hcon
  split at h
  · simp only [bind_eq_ok, ensure_eq_ok, BTreeSet.isEmpty_iff, exists_const, pure_eq_ok] at h
    exact .inl ⟨h.2.symm, h.1.2⟩
  · split at h
    · simp only [bind_eq_ok, ensure_eq_ok, BTreeSet.isEmpty_iff, exists_const, pure_eq_ok] at h
      exact .inr (.inl ⟨h.2.symm, h.1⟩)
    · split at h
      · next hne =>
          refine .inr (.inr ⟨(pure_eq_ok.mp h).symm, ?_, hcon⟩)
          simpa using hne
      · next hne =>
          refine .inr (.inl ⟨(pure_eq_ok.mp h).symm, ?_⟩)
          simpa using hne

theorem albumCategory_lawful : albumCategory.Lawful where
  plain := albumGrammar_plain
  words s := by cases s <;> simp [albumCategory, albumGrammar, Grammar.words]
  names c s h := by
    rcases albumOutcome_eq_ok h with ⟨rfl, hi, -⟩ | ⟨rfl, hi⟩ | ⟨rfl, -, -⟩
    · exact hi.symm
    · exact hi.symm
    · rfl
  excluded c s h := by
    rcases albumOutcome_eq_ok h with ⟨rfl, -, he⟩ | ⟨rfl, -⟩ | ⟨rfl, -, -⟩
    · exact he.symm
    · rfl
    · rfl
  again c s h := by
    have hcon (included excluded : BTreeSet String) (hd : ∀ n ∈ included, n ∉ excluded) :
        contradictionCheck "album" included excluded = .ok () := contradictionCheck_eq_ok.mpr hd
    rcases albumOutcome_eq_ok h with ⟨rfl, -, -⟩ | ⟨rfl, -⟩ | ⟨rfl, hne, hd⟩
    · decide
    · simp [albumCategory, albumOutcome, hcon, BTreeSet.mem_insertAll]
    · simp [albumCategory, albumOutcome, hcon _ _ hd, BTreeSet.mem_insertAll, hne]

/- ### smart folders -/

/-- Smart folders as a category. -/
def smartFolderCategory : Category SmartFolderSelector where
  grammar := smartFolderGrammar
  outcome := smartFolderOutcome
  words
    | .none => ["none"]
    | .all includeSensitive _ => [if includeSensitive then "all-with-sensitive" else "all"]
    | .named _ _ => []
  names
    | .named included _ => included
    | _ => BTreeSet.empty
  excluded
    | .none => BTreeSet.empty
    | .all _ excluded => excluded
    | .named _ excluded => excluded

variable {s : SmartFolderSelector}

theorem smartFolderOutcome_eq_ok (h : smartFolderOutcome c = .ok s) :
    (s = .none ∧ c.included = BTreeSet.empty ∧ c.excluded = BTreeSet.empty) ∨
    (∃ b, s = .all b c.excluded ∧ c.included = BTreeSet.empty) ∨
    (s = .named c.included c.excluded ∧ c.included ≠ BTreeSet.empty ∧
      ∀ n ∈ c.included, n ∉ c.excluded) := by
  obtain ⟨u, hcon, h⟩ := bind_eq_ok.mp h
  rw [contradictionCheck_eq_ok] at hcon
  split at h
  · simp only [bind_eq_ok, ensure_eq_ok, BTreeSet.isEmpty_iff, exists_const, pure_eq_ok] at h
    exact .inl ⟨h.2.symm, h.1.2.2⟩
  · split at h
    · simp only [bind_eq_ok, ensure_eq_ok, BTreeSet.isEmpty_iff, exists_const, pure_eq_ok] at h
      exact .inr (.inl ⟨_, h.2.2.symm, h.2.1⟩)
    · split at h
      · next hne =>
          refine .inr (.inr ⟨(pure_eq_ok.mp h).symm, ?_, hcon⟩)
          simpa using hne
      · next hne =>
          refine .inr (.inl ⟨_, (pure_eq_ok.mp h).symm, ?_⟩)
          simpa using hne

theorem smartFolderCategory_lawful : smartFolderCategory.Lawful where
  plain := smartFolderGrammar_plain
  words s := by
    cases s with
    | all b e => cases b <;> simp [smartFolderCategory, smartFolderGrammar, Grammar.words]
    | _ => simp [smartFolderCategory, smartFolderGrammar, Grammar.words]
  names c s h := by
    rcases smartFolderOutcome_eq_ok h with ⟨rfl, hi, -⟩ | ⟨b, rfl, hi⟩ | ⟨rfl, -, -⟩
    · exact hi.symm
    · exact hi.symm
    · rfl
  excluded c s h := by
    rcases smartFolderOutcome_eq_ok h with ⟨rfl, -, he⟩ | ⟨b, rfl, -⟩ | ⟨rfl, -, -⟩
    · exact he.symm
    · rfl
    · rfl
  again c s h := by
    have hcon (included excluded : BTreeSet String) (hd : ∀ n ∈ included, n ∉ excluded) :
        contradictionCheck "smart-folder" included excluded = .ok () :=
      contradictionCheck_eq_ok.mpr hd
    rcases smartFolderOutcome_eq_ok h with ⟨rfl, -, -⟩ | ⟨b, rfl, -⟩ | ⟨rfl, hne, hd⟩
    · decide
    · cases b <;>
        simp [smartFolderCategory, smartFolderOutcome, hcon, BTreeSet.mem_insertAll]
    · simp [smartFolderCategory, smartFolderOutcome, hcon _ _ hd, BTreeSet.mem_insertAll, hne]

/- ### libraries -/

/-- Libraries as a category. -/
def libraryCategory : Category LibrarySelector where
  grammar := libraryGrammar
  outcome := libraryOutcome
  words sel :=
    if sel.primary && sel.sharedAll && sel.named.isEmpty then
      ["all"]
    else
      (if sel.primary then ["primary"] else []) ++ (if sel.sharedAll then ["shared"] else [])
  names := LibrarySelector.named
  excluded := LibrarySelector.excluded

theorem libraryOutcome_eq_ok {s : LibrarySelector} :
    libraryOutcome c = .ok s ↔
      c.has "none" = false ∧ (∀ n ∈ c.included, n ∉ c.excluded) ∧ s.isEmpty = false ∧
        librarySelector c = s := by
  simp only [libraryOutcome, bind_eq_ok, ensure_eq_ok, contradictionCheck_eq_ok, exists_const,
    pure_eq_ok]
  constructor
  · rintro ⟨hn, hd, he, rfl⟩; exact ⟨hn, hd, he, rfl⟩
  · rintro ⟨hn, hd, he, rfl⟩; exact ⟨hn, hd, he, rfl⟩

theorem librarySelector_primary {sel : LibrarySelector} (h : librarySelector c = sel)
    (hp : sel.primary = false) :
    (!sel.sharedAll && sel.named.isEmpty && !sel.excluded.isEmpty) = false := by
  subst h
  simp only [librarySelector, Bool.or_eq_false_iff] at hp ⊢
  exact hp.2

theorem librarySelector_words {sel : LibrarySelector} (h : librarySelector c = sel) :
    librarySelector
        ⟨BTreeSet.empty.insertAll (libraryCategory.words sel), sel.named, sel.excluded⟩ = sel := by
  have hp := librarySelector_primary h
  obtain ⟨primary, sharedAll, named, excluded⟩ := sel
  by_cases hne : named = BTreeSet.empty
  · cases primary <;> cases sharedAll <;>
      simp_all [librarySelector, libraryCategory, BTreeSet.mem_insertAll]
  · cases primary <;> cases sharedAll <;>
      simp_all [librarySelector, libraryCategory, BTreeSet.mem_insertAll]

theorem none_not_mem_words (sel : LibrarySelector) : "none" ∉ libraryCategory.words sel := by
  obtain ⟨primary, sharedAll, named, excluded⟩ := sel
  simp only [libraryCategory]
  grind

theorem libraryCategory_lawful : libraryCategory.Lawful where
  plain := libraryGrammar_plain
  words s := by
    obtain ⟨p, sh, n, e⟩ := s
    simp only [libraryCategory, libraryGrammar, Grammar.words]
    grind
  names c s h := by
    obtain ⟨-, -, -, rfl⟩ := libraryOutcome_eq_ok.mp h
    rfl
  excluded c s h := by
    obtain ⟨-, -, -, rfl⟩ := libraryOutcome_eq_ok.mp h
    rfl
  again c s h := by
    obtain ⟨hn, hd, he, hs⟩ := libraryOutcome_eq_ok.mp h
    refine libraryOutcome_eq_ok.mpr ⟨?_, ?_, he, librarySelector_words hs⟩
    · rw [has_mk, decide_eq_false_iff_not, BTreeSet.mem_insertAll]
      rintro (h | h)
      · exact BTreeSet.not_mem_empty _ h
      · exact none_not_mem_words s h
    · subst hs; exact hd

/-- The renderer's test does not depend on the order of the sentinel words. -/
theorem escapeIfNeeded_congr {l l' : List String} (h : ∀ w, w ∈ l ↔ w ∈ l') (n : String) :
    escapeIfNeeded n l = escapeIfNeeded n l' := by
  have hany : l.any (eqIgnoreAsciiCase n) = l'.any (eqIgnoreAsciiCase n) := by
    rw [Bool.eq_iff_iff, List.any_eq_true, List.any_eq_true]
    simp only [h]
  unfold escapeIfNeeded
  rw [hany]

/- ### the raw forms are the rendered ones -/

theorem AlbumSelector.toRaw_eq (s : AlbumSelector) : s.toRaw = albumCategory.rendered s := by
  cases s <;> rfl

theorem SmartFolderSelector.toRaw_eq (h : s ≠ .none) :
    s.toRaw = smartFolderCategory.rendered s := by
  cases s with
  | none => contradiction
  | _ => rfl

theorem LibrarySelector.toRaw_eq (s : LibrarySelector) :
    s.toRaw = libraryCategory.rendered s := by
  have hinc : renderIncluded s.named ["primary", "shared", "all", "none"] =
      renderIncluded s.named libraryGrammar.words := by
    unfold renderIncluded
    refine List.map_congr_left (fun n _ => escapeIfNeeded_congr (fun w => ?_) n)
    simp only [libraryGrammar, Grammar.words, List.map_cons, List.map_nil, List.mem_cons,
      List.not_mem_nil, or_false]
    tauto
  unfold LibrarySelector.toRaw Category.rendered render
  rw [hinc]
  simp only [libraryCategory]
  split
  · next h =>
      simp only [Bool.and_eq_true, BTreeSet.isEmpty_iff] at h
      simp [h.2, renderIncluded]
  · simp

/- ### the parsers -/

theorem parse_eq_ok_iff {x : Except ε α} {f : α → Except ε β} {e : Except ε β} {b : Bool}
    (hb : b = false) {s : β} :
    (if b then e else x >>= f) = .ok s ↔ ∃ c, x = .ok c ∧ f c = .ok s := by
  rw [hb, if_neg Bool.false_ne_true, bind_eq_ok]

theorem parseAlbumSelector_restored_iff {d : Bool} {s : AlbumSelector}
    (h : parseAlbumSelector raw d = .ok s) :
    parseAlbumSelector s.toRaw d = .ok s ↔ ∀ e ∈ raw, paddedLiteral e = false := by
  by_cases hraw : raw = []
  · subst hraw
    cases Except.ok.inj h
    cases d <;> simp <;> decide
  · have hne : raw.isEmpty = false := by simpa using hraw
    obtain ⟨c, hcol, hs⟩ := (parse_eq_ok_iff hne).mp h
    have htoRaw : s.toRaw.isEmpty = false := by
      rcases albumOutcome_eq_ok hs with ⟨rfl, -, -⟩ | ⟨rfl, -⟩ | ⟨rfl, hinc, -⟩
      · rfl
      · rfl
      · have hel : c.included.elems ≠ [] := fun he =>
          hinc (BTreeSet.isEmpty_iff.mp (List.isEmpty_iff.mpr he))
        simp [AlbumSelector.toRaw, renderIncluded, hel]
    unfold parseAlbumSelector
    rw [parse_eq_ok_iff htoRaw, ← albumCategory_lawful.restored_iff hcol hs, s.toRaw_eq]
    rfl

theorem parseSmartFolderSelector_restored_iff (h : parseSmartFolderSelector raw = .ok s) :
    parseSmartFolderSelector s.toRaw = .ok s ↔ ∀ e ∈ raw, paddedLiteral e = false := by
  by_cases hraw : raw = []
  · subst hraw
    cases Except.ok.inj h
    simp
    decide
  · have hne : raw.isEmpty = false := by simpa using hraw
    obtain ⟨c, hcol, hs⟩ := (parse_eq_ok_iff hne).mp h
    by_cases hnone : s = .none
    · -- The raw form of `none` is the empty list, which is the default.
      subst hnone
      have hinc := smartFolderCategory_lawful.names c _ hs
      rw [← collect_unpadded_iff hcol]
      refine iff_of_true rfl (fun n hn => ?_)
      rw [← hinc] at hn
      exact absurd hn (BTreeSet.not_mem_empty n)
    · have htoRaw : s.toRaw.isEmpty = false := by
        rcases smartFolderOutcome_eq_ok hs with ⟨rfl, -, -⟩ | ⟨b, rfl, -⟩ | ⟨rfl, hinc, -⟩
        · contradiction
        · rfl
        · have hel : c.included.elems ≠ [] := fun he =>
            hinc (BTreeSet.isEmpty_iff.mp (List.isEmpty_iff.mpr he))
          simp [SmartFolderSelector.toRaw, renderIncluded, hel]
      unfold parseSmartFolderSelector
      rw [parse_eq_ok_iff htoRaw, ← smartFolderCategory_lawful.restored_iff hcol hs,
        SmartFolderSelector.toRaw_eq hnone]
      rfl

theorem parseLibrarySelector_restored_iff {s : LibrarySelector}
    (h : parseLibrarySelector raw = .ok s) :
    parseLibrarySelector s.toRaw = .ok s ↔ ∀ e ∈ raw, paddedLiteral e = false := by
  by_cases hraw : raw = []
  · subst hraw
    cases Except.ok.inj h
    simp
    decide
  · have hne : raw.isEmpty = false := by simpa using hraw
    obtain ⟨c, hcol, hs⟩ := (parse_eq_ok_iff hne).mp h
    have htoRaw : s.toRaw.isEmpty = false := by
      obtain ⟨-, -, hsel, -⟩ := libraryOutcome_eq_ok.mp hs
      obtain ⟨primary, sharedAll, named, excluded⟩ := s
      simp only [LibrarySelector.isEmpty] at hsel
      simp only [LibrarySelector.toRaw, renderIncluded]
      -- A flag that is set renders to a word, and without both there is a name.
      cases primary with
      | true => cases sharedAll <;> cases named.isEmpty <;> simp
      | false =>
          cases sharedAll with
          | true => simp
          | false =>
              have hel : named.elems ≠ [] := fun he => by
                simp [BTreeSet.isEmpty, he] at hsel
              simp [hel]
    unfold parseLibrarySelector
    rw [parse_eq_ok_iff htoRaw, ← libraryCategory_lawful.restored_iff hcol hs, s.toRaw_eq]
    rfl

/-- **Exactly the selectors without a padded literal survive being written
back**: for each of the three parsers, the raw form of an accepted selector
parses to the same selector iff no raw entry escapes a name that starts with
white space. -/
theorem selectors_restored_iff (raw : List String) (defaultToAll : Bool) :
    (∀ s, parseAlbumSelector raw defaultToAll = .ok s →
      (parseAlbumSelector s.toRaw defaultToAll = .ok s ↔ ∀ e ∈ raw, paddedLiteral e = false)) ∧
    (∀ s, parseSmartFolderSelector raw = .ok s →
      (parseSmartFolderSelector s.toRaw = .ok s ↔ ∀ e ∈ raw, paddedLiteral e = false)) ∧
    (∀ s, parseLibrarySelector raw = .ok s →
      (parseLibrarySelector s.toRaw = .ok s ↔ ∀ e ∈ raw, paddedLiteral e = false)) :=
  ⟨fun _ h => parseAlbumSelector_restored_iff h,
    fun _ h => parseSmartFolderSelector_restored_iff h,
    fun _ h => parseLibrarySelector_restored_iff h⟩

/-- The album ` foo`, selected as `= foo`, is written back as ` foo` and read as `foo`. -/
theorem selector_not_restored :
    ∃ s, parseAlbumSelector ["= foo"] true = .ok s ∧
      parseAlbumSelector s.toRaw true ≠ .ok s :=
  ⟨.named (BTreeSet.empty.insert " foo") BTreeSet.empty, by decide, by decide⟩

/-- Selectors that look like sentinels, escapes and exclusions are restored. -/
theorem selectors_restored_escaped :
    (parseAlbumSelector
        (AlbumSelector.named (BTreeSet.empty.insert "!x") (BTreeSet.empty.insert " y")).toRaw true
      = .ok (.named (BTreeSet.empty.insert "!x") (BTreeSet.empty.insert " y"))) ∧
    (parseSmartFolderSelector
        (SmartFolderSelector.named (BTreeSet.empty.insert "all") BTreeSet.empty).toRaw
      = .ok (.named (BTreeSet.empty.insert "all") BTreeSet.empty)) ∧
    (parseLibrarySelector (LibrarySelector.mk true false BTreeSet.empty
        (BTreeSet.empty.insert "shared")).toRaw
      = .ok ⟨true, false, BTreeSet.empty, BTreeSet.empty.insert "shared"⟩) :=
  ⟨((selectors_restored_iff ["=!x", "! y"] true).1 _ (by decide)).mpr (by decide),
    ((selectors_restored_iff ["=all"] true).2.1 _ (by decide)).mpr (by decide),
    ((selectors_restored_iff ["!SHARED"] true).2.2 _ (by decide)).mpr (by decide)⟩

end Kei.Selection
