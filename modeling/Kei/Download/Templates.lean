import Kei.Download.Contained
import Kei.Download.PassFolders

/-!
# Kei.Download.Templates

Folder templates: which ones are accepted, and the directories that come of them.

The tokens of an accepted template are whole segments, so that a directory could
be built segment by segment, each token giving one component.  The program
replaces the tokens in the text instead, one after the other, and what a name
brings into the text is read again.
-/

namespace Kei.Download

open Str FullEnumeration

/-! ## validation -/

inductive TemplateKind where
  | albums
  | smartFolders
  | unfiled
  deriving DecidableEq

namespace TemplateKind

def flagName : TemplateKind → String
  | albums => "--folder-structure-albums"
  | smartFolders => "--folder-structure-smart-folders"
  | unfiled => "--folder-structure"

def categoryToken : TemplateKind → Option String
  | albums => some tokenAlbum
  | smartFolders => some tokenSmartFolder
  | unfiled => none

/-- The kind of the template that a pass takes. -/
def of : PassKind → TemplateKind
  | .album => albums
  | .smartFolder => smartFolders
  | .unfiled => unfiled

end TemplateKind

/-- The segments of a template. -/
def segments (template : String) : List String :=
  (split template '/').filter (fun segment => segment ≠ "")

def validateTemplateTokens (folderStructure : String) (kind : TemplateKind) :
    Except String Unit := do
  let stripped := stripPythonWrapper folderStructure
  let flag := kind.flagName
  let category := kind.categoryToken
  let template := "\"" ++ folderStructure ++ "\""
  let owners := [(tokenAlbum, "--folder-structure-albums"),
    (tokenSmartFolder, "--folder-structure-smart-folders")]
  match owners.find? (fun owner => some owner.1 ≠ category && contains stripped owner.1) with
  | some (token, owner) =>
      throw ("`" ++ token ++ "` cannot be used in " ++ flag ++ ". Move it to " ++ owner ++
        ". Template: " ++ template)
  | none => pure ()
  match (tokenLibrary :: category.toList).find? (fun t => 1 < countMatches stripped t) with
  | some token =>
      throw ("`" ++ token ++ "` can appear only once in " ++ flag ++ ". Found " ++
        toString (countMatches stripped token) ++ " in " ++ template ++ ".")
  | none => pure ()
  let hasLibrary := contains stripped tokenLibrary
  if hasLibrary && (segments stripped).head? ≠ some tokenLibrary then
    throw ("`" ++ tokenLibrary ++ "` must be the first path segment in " ++ flag ++
      ". Template: " ++ template)
  match category.filter (fun t => contains stripped t) with
  | some cat =>
      let expectedIndex := if hasLibrary then 1 else 0
      if (segments stripped)[expectedIndex]? ≠ some cat then
        let position :=
          if hasLibrary then "must immediately follow '\x7blibrary\x7d'"
          else "must be the first path segment"
        throw ("`" ++ cat ++ "` " ++ position ++ " in " ++ flag ++ ". Template: " ++ template)
  | none => pure ()

/-! ## segment by segment -/

/-- What a segment stands for: a token is one component, and anything else is formatted. -/
def segmentComponents (host : Host) (date : DateTime) (pass : AlbumPass)
    (library segment : String) : List String :=
  if some segment = (TemplateKind.of pass.kind).categoryToken then
    [sanitizePathComponent host.platform pass.name]
  else if segment = tokenLibrary then
    [sanitizePathComponent host.platform (truncateLibraryZone library)]
  else
    (segments (host.strftime date segment)).map (sanitizePathComponent host.platform)

/-- The directory that an accepted template means. -/
def segmentwiseDir (host : Host) (directory : Path) (template library : String) (pass : AlbumPass)
    (date : DateTime) : Path :=
  let stripped := stripPythonWrapper template
  if eqIgnoreAsciiCase stripped noDateStructure then
    directory
  else
    ((segments stripped).flatMap (segmentComponents host date pass library)).foldl join directory

/-- The template that a pass takes. -/
def templateFor (folderStructure folderStructureAlbums folderStructureSmartFolders : String) :
    PassKind → String
  | .album => folderStructureAlbums
  | .smartFolder => folderStructureSmartFolders
  | .unfiled => folderStructure

/-! ## what acceptance says -/

variable {host : Host} {template s name : String} {pass : AlbumPass} {kind : PassKind}

/-- What the checks of a template say when none of them fails. -/
structure Checked (stripped : String) (category : Option String) : Prop where
  own : ∀ token ∈ [tokenAlbum, tokenSmartFolder], some token = category ∨
    contains stripped token = false
  once : ∀ token ∈ tokenLibrary :: category.toList, countMatches stripped token ≤ 1
  libraryFirst : contains stripped tokenLibrary = true →
    (segments stripped).head? = some tokenLibrary
  categoryNext : ∀ token ∈ category, contains stripped token = true →
    (segments stripped)[if contains stripped tokenLibrary then 1 else 0]? = some token

theorem checked_of_validate {kind : TemplateKind}
    (h : validateTemplateTokens template kind = .ok ()) :
    Checked (stripPythonWrapper template) kind.categoryToken := by
  unfold validateTemplateTokens at h
  dsimp only at h
  split at h
  · cases h
  · next howners =>
      split at h
      · cases h
      · next hcounts =>
          split at h
          · cases h
          · next hlibrary =>
              have hnext : ∀ token ∈ kind.categoryToken,
                  contains (stripPythonWrapper template) token = true →
                  (segments (stripPythonWrapper template))[
                    if contains (stripPythonWrapper template) tokenLibrary then 1 else 0]? =
                      some token := by
                intro token htoken hcontains
                rw [Option.mem_def.mp htoken, Option.filter_some, if_pos hcontains] at h
                dsimp only at h
                by_contra hindex
                rw [if_pos hindex] at h
                cases h
              have hnone := List.find?_eq_none.mp howners
              refine ⟨fun token htoken => ?_, fun token htoken => ?_, fun hcontains => ?_, hnext⟩
              · simp only [List.mem_cons, List.not_mem_nil, or_false, forall_eq_or_imp, forall_eq,
                  Bool.and_eq_true, decide_eq_true_eq, not_and, Bool.not_eq_true] at hnone htoken
                obtain rfl | rfl := htoken
                · exact or_iff_not_imp_left.mpr hnone.1
                · exact or_iff_not_imp_left.mpr hnone.2
              · simpa using List.find?_eq_none.mp hcounts token htoken
              · simpa [hcontains] using hlibrary

theorem token_ne (kind : PassKind) : PassKind.token kind ≠ "" ∧
    '/' ∉ (PassKind.token kind).toList ∧ ':' ∉ (PassKind.token kind).toList ∧
    contains tokenLibrary (PassKind.token kind) = false := by
  cases kind <;> decide

/-- In an accepted template every token is a segment of its own, the first one if there is any,
and no other text is read as one. -/
structure WellPlaced (stripped : String) (kind : PassKind) : Prop where
  category : ∀ piece ∈ split stripped '/', piece = PassKind.token kind ∨
    contains piece (PassKind.token kind) = false
  library : ∀ piece ∈ split stripped '/', piece = tokenLibrary ∨
    contains piece tokenLibrary = false
  album : ∀ piece ∈ split stripped '/', piece = PassKind.token kind ∨
    contains piece tokenAlbum = false
  leading : ∀ token ∈ [PassKind.token kind, tokenLibrary], token ∈ split stripped '/' →
    ':' ∉ ((split stripped '/').headD "").toList
  own : PassKind.token kind ∈ split stripped '/' →
    (TemplateKind.of kind).categoryToken = some (PassKind.token kind)

variable {token : String}

theorem contains_of_mem (hne : token ≠ "") (hslash : '/' ∉ token.toList)
    (hmem : token ∈ split s '/') : contains s token = true := by
  have hself : contains token token = true := containsFrom_iff.mpr (List.infix_refl _)
  rw [contains_eq_any hne hslash, List.any_eq_true]
  exact ⟨token, hmem, hself⟩

theorem mem_split_of_segments {i : Nat} {segment : String}
    (h : (segments s)[i]? = some segment) : segment ∈ split s '/' :=
  (List.mem_filter.mp (List.mem_of_getElem? h)).1

theorem leading_of_head (hcolon : ':' ∉ token.toList) (h : (segments s).head? = some token) :
    ':' ∉ ((split s '/').headD "").toList := by
  unfold segments at h
  cases hpieces : split s '/' with
  | nil => simp
  | cons first rest =>
      rw [hpieces, List.filter_cons] at h
      split at h
      · obtain rfl : first = token := by simpa using h
        exact hcolon
      · next hempty =>
          obtain rfl : first = "" := by simpa using hempty
          simp

theorem Checked.wellPlaced (h : Checked s (TemplateKind.of kind).categoryToken) :
    WellPlaced s kind := by
  obtain ⟨hne, hslash, hcolon, -⟩ := token_ne kind
  have hnotLibrary : tokenLibrary ≠ "" ∧ '/' ∉ tokenLibrary.toList ∧ ':' ∉ tokenLibrary.toList := by
    decide
  have habsent {token : String} (hne : token ≠ "") (hslash : '/' ∉ token.toList)
      (habsent : contains s token = false) :
      ∀ piece ∈ split s '/', contains piece token = false := by
    rw [contains_eq_any hne hslash, List.any_eq_false] at habsent
    simpa using habsent
  have hlibrary : ∀ piece ∈ split s '/', piece = tokenLibrary ∨
      contains piece tokenLibrary = false := by
    refine whole_piece hnotLibrary.1 hnotLibrary.2.1 (h.once _ (by simp)) fun hthere => ?_
    have hfirst := h.libraryFirst hthere
    rw [List.head?_eq_getElem?] at hfirst
    exact mem_split_of_segments hfirst
  have hlibraryFirst (hthere : contains s tokenLibrary = true) :=
    leading_of_head hnotLibrary.2.2 (h.libraryFirst hthere)
  have hcases : (TemplateKind.of kind).categoryToken = some (PassKind.token kind) ∨
      contains s (PassKind.token kind) = false := by
    cases kind with
    | album => exact .inl rfl
    | smartFolder => exact .inl rfl
    | unfiled => exact .inr ((h.own _ List.mem_cons_self).resolve_left (by decide))
  have hthere (hmem : PassKind.token kind ∈ split s '/') :
      (TemplateKind.of kind).categoryToken = some (PassKind.token kind) :=
    hcases.resolve_right (by simp [contains_of_mem hne hslash hmem])
  have hcategory : ∀ piece ∈ split s '/', piece = PassKind.token kind ∨
      contains piece (PassKind.token kind) = false := by
    obtain hsome | hnone := hcases
    · refine whole_piece hne hslash (h.once _ (by simp [hsome])) fun hthere => ?_
      exact mem_split_of_segments (h.categoryNext _ hsome hthere)
    · exact fun piece hpiece => .inr (habsent hne hslash hnone piece hpiece)
  refine ⟨hcategory, hlibrary, fun piece hpiece => ?_, fun token htoken hmem => ?_, hthere⟩
  · obtain hsame | halbum := h.own _ List.mem_cons_self
    · have htoken : PassKind.token kind = tokenAlbum := by
        cases kind <;> first | rfl | simp [TemplateKind.of, TemplateKind.categoryToken] at hsame
        exact absurd hsame (by decide)
      rw [← htoken]
      exact hcategory piece hpiece
    · exact .inr (habsent (by decide) (by decide) halbum piece hpiece)
  · simp only [List.mem_cons, List.not_mem_nil, or_false] at htoken
    by_cases hwith : contains s tokenLibrary = true
    · exact hlibraryFirst hwith
    · obtain rfl | rfl := htoken
      · have hnext := h.categoryNext _ (hthere hmem) (contains_of_mem hne hslash hmem)
        rw [if_neg hwith, ← List.head?_eq_getElem?] at hnext
        exact leading_of_head hcolon hnext
      · exact absurd (contains_of_mem hnotLibrary.1 hnotLibrary.2.1 hmem) hwith

/-! ## names in the text -/

/-- What a name is in the text of a template. -/
def inText (host : Host) (name : String) : String :=
  replace (sanitizePathComponent host.platform name) "%" "%%"

theorem isInvalid_inText : ∀ c ∈ (inText host name).toList, isInvalid c = false := by
  intro c hc
  rw [inText, replace, String.toList_ofList] at hc
  obtain hname | hpercent := mem_replaceFrom hc
  · exact (sanitizePathComponent_normal host.platform name).clean c hname
  · have hsame : c = '%' := by simpa using hpercent
    rw [hsame]
    decide

theorem not_mem_inText {c : Char} (hc : isInvalid c = true) : c ∉ (inText host name).toList :=
  fun hmem => Bool.false_ne_true ((isInvalid_inText c hmem).symm.trans hc)

theorem contains_inText (hne : token ≠ "") (hpercent : '%' ∉ token.toList) :
    contains (inText host name) token =
      contains (sanitizePathComponent host.platform name) token := by
  have hdouble := containsFrom_double (by simpa using hne) hpercent
    (sanitizePathComponent host.platform name).toList
  rw [contains, inText, replace, String.toList_ofList]
  exact hdouble

theorem expandNamedToken_eq {option : Option String} (hstrip : stripPythonWrapper template = s)
    (hname : contains s token = true → option = some name ∧ name ≠ "") :
    expandNamedToken host template token option = replace s token (inText host name) := by
  unfold expandNamedToken
  dsimp only
  rw [hstrip]
  split
  · next hthere =>
      obtain ⟨rfl, hne⟩ := hname hthere
      simp [Option.filter_some, hne, inText]
  · next habsent => rw [replace_of_not_contains (by simpa using habsent)]

theorem strip_of_leading (h : ':' ∉ ((split s '/').headD "").toList) :
    stripPythonWrapper s = s := by
  unfold stripPythonWrapper
  rw [if_neg]
  rw [Bool.and_eq_true, not_and]
  intro hfront
  obtain ⟨rest, hrest⟩ := List.isPrefixOf_iff_prefix.mp hfront
  refine absurd ?_ h
  rw [split, ← hrest]
  simp only [List.cons_append, List.nil_append, splitList]
  cases splitList '/' rest <;> simp

theorem strip_of_map {text : String} {f : String → String}
    (hf : ∀ piece, ':' ∉ piece.toList → ':' ∉ (f piece).toList)
    (hsplit : split text '/' = (split s '/').map f)
    (hleading : ':' ∉ ((split s '/').headD "").toList) : stripPythonWrapper text = text := by
  refine strip_of_leading ?_
  rw [hsplit]
  cases hpieces : split s '/' with
  | nil => simp
  | cons piece rest =>
      rw [hpieces] at hleading
      exact hf piece hleading

/-- A name that stays a name wherever it stands: it is not empty, there is no token in its
component, and where it is all of the template it does not say that there is no directory. -/
structure StaysName (host : Host) (name : String) (tokens : List String) (alone : Prop) : Prop where
  nonempty : name ≠ ""
  short : host.platform = .windows →
    byteLen (sanitizePathComponent host.platform name) ≤ maxFilenameBytes
  noToken : ∀ token ∈ tokens, contains (sanitizePathComponent host.platform name) token = false
  someDate : alone →
    eqIgnoreAsciiCase (sanitizePathComponent host.platform name) noDateStructure = false

/-- The names that go into a template stay names, and it has one wrapper at most. -/
structure NamesStay (host : Host) (stripped library : String) (pass : AlbumPass) : Prop where
  unwrapped : stripPythonWrapper stripped = stripped
  category : PassKind.token pass.kind ∈ split stripped '/' →
    StaysName host pass.name [tokenAlbum, tokenLibrary] (stripped = PassKind.token pass.kind)
  library : tokenLibrary ∈ split stripped '/' →
    StaysName host (truncateLibraryZone library) [tokenAlbum] (stripped = tokenLibrary)

/-- What is put for a piece of a template. -/
def fill (host : Host) (pass : AlbumPass) (library piece : String) : String :=
  if piece = PassKind.token pass.kind then inText host pass.name
  else if piece = tokenLibrary then inText host (truncateLibraryZone library)
  else piece

theorem not_contains_of_not_mem (hne : token ≠ "") (hslash : '/' ∉ token.toList)
    (hwhole : ∀ piece ∈ split s '/', piece = token ∨ contains piece token = false)
    (h : token ∉ split s '/') : contains s token = false := by
  rw [contains_eq_any hne hslash, List.any_eq_false]
  intro piece hpiece
  obtain rfl | hnone := hwhole piece hpiece
  · exact absurd hpiece h
  · simp [hnone]

/-- The name of the category is in no piece that a token of the library is looked for in. -/
theorem NamesStay.category_text {library : String} (h : NamesStay host s library pass)
    (hmem : PassKind.token pass.kind ∈ split s '/') :
    contains (inText host pass.name) tokenLibrary = false ∧
      contains (inText host pass.name) tokenAlbum = false := by
  have hstays := (h.category hmem).noToken
  rw [contains_inText (by decide) (by decide), contains_inText (by decide) (by decide)]
  exact ⟨hstays _ (by simp), hstays _ (by simp)⟩

theorem replace_piece {library piece : String} (hplaced : WellPlaced s pass.kind)
    (hnames : NamesStay host s library pass) (hmem : piece ∈ split s '/') :
    contains (replace piece (PassKind.token pass.kind) (inText host pass.name)) tokenLibrary =
        decide (piece = tokenLibrary) ∧
      replace (replace piece (PassKind.token pass.kind) (inText host pass.name)) tokenLibrary
        (inText host (truncateLibraryZone library)) = fill host pass library piece := by
  obtain ⟨hne, -, -, hlibrary⟩ := token_ne pass.kind
  have hself : contains tokenLibrary tokenLibrary = true := by decide
  by_cases hcategory : piece = PassKind.token pass.kind
  · subst hcategory
    have hother : PassKind.token pass.kind ≠ tokenLibrary := fun h => by
      rw [h, hself] at hlibrary
      cases hlibrary
    have hnone := (hnames.category_text hmem).1
    rw [replace_self hne, replace_of_not_contains hnone, fill, if_pos rfl]
    simp [hnone, hother]
  · rw [replace_of_not_contains ((hplaced.category piece hmem).resolve_left hcategory), fill,
      if_neg hcategory]
    by_cases htoken : piece = tokenLibrary
    · subst htoken
      rw [if_pos rfl, replace_self (by decide)]
      simp [hself]
    · have hnone := (hplaced.library piece hmem).resolve_left htoken
      rw [if_neg htoken, replace_of_not_contains hnone]
      simp [hnone, htoken]

theorem folderStructureForPass_eq (host : Host) (folderStructure folderStructureAlbums
    folderStructureSmartFolders library : String) (pass : AlbumPass) :
    folderStructureForPass host folderStructure folderStructureAlbums folderStructureSmartFolders
      library pass = expandNamedToken host (expandNamedToken host (templateFor folderStructure
        folderStructureAlbums folderStructureSmartFolders pass.kind) (PassKind.token pass.kind)
          ((some pass.name).filter (fun n => n ≠ ""))) tokenLibrary
        (some (truncateLibraryZone library)) := by
  unfold folderStructureForPass templateFor
  cases pass.kind <;> rfl

/-- **The text of a pass is that of its template, with a name for each token**, and none of it
is read as a wrapper or a token again. -/
theorem folderStructureForPass_split {folderStructure folderStructureAlbums
    folderStructureSmartFolders library : String}
    (hstrip : stripPythonWrapper (templateFor folderStructure folderStructureAlbums
      folderStructureSmartFolders pass.kind) = s) (hplaced : WellPlaced s pass.kind)
    (hnames : NamesStay host s library pass) :
    ∃ text, folderStructureForPass host folderStructure folderStructureAlbums
        folderStructureSmartFolders library pass = text ∧
      stripPythonWrapper text = text ∧
      split text '/' = (split s '/').map (fill host pass library) ∧
      contains text tokenAlbum = false := by
  obtain ⟨hne, hslash, -, -⟩ := token_ne pass.kind
  have hnot : tokenLibrary ≠ "" ∧ '/' ∉ tokenLibrary.toList := by decide
  have hplain {name : String} : '/' ∉ (inText host name).toList := not_mem_inText (by decide)
  have hcolon {name : String} : ':' ∉ (inText host name).toList := not_mem_inText (by decide)
  generalize hfirst : replace s (PassKind.token pass.kind) (inText host pass.name) = first
  generalize htext : replace first tokenLibrary (inText host (truncateLibraryZone library)) = text
  have hsplitFirst : split first '/' = (split s '/').map (fun piece =>
      replace piece (PassKind.token pass.kind) (inText host pass.name)) := by
    rw [← hfirst, split_replace hne hslash hplain]
  have hsplit : split text '/' = (split s '/').map (fill host pass library) := by
    rw [← htext, split_replace hnot.1 hnot.2 hplain, hsplitFirst, List.map_map]
    exact List.map_congr_left fun piece hmem => (replace_piece hplaced hnames hmem).2
  have hthere : contains first tokenLibrary = true → tokenLibrary ∈ split s '/' := by
    rw [contains_eq_any hnot.1 hnot.2, hsplitFirst, List.any_map, List.any_eq_true]
    intro ⟨piece, hmem, hcontains⟩
    rw [Function.comp_apply, (replace_piece hplaced hnames hmem).1, decide_eq_true_eq]
      at hcontains
    exact hcontains ▸ hmem
  have hstripped : stripPythonWrapper first = first ∧ stripPythonWrapper text = text := by
    by_cases htoken : ∃ token ∈ [PassKind.token pass.kind, tokenLibrary], token ∈ split s '/'
    · obtain ⟨token, htoken, hmem⟩ := htoken
      have hleading := hplaced.leading token htoken hmem
      refine ⟨strip_of_map (fun piece h => ?_) hsplitFirst hleading,
        strip_of_map (fun piece h => ?_) hsplit hleading⟩
      · rw [replace, String.toList_ofList]
        exact fun hmem => (mem_replaceFrom hmem).elim h hcolon
      · unfold fill
        split
        · exact hcolon
        · split
          · exact hcolon
          · exact h
    · -- without a token the text is the template, which has no second wrapper
      simp only [List.mem_cons, List.not_mem_nil, or_false, exists_eq_or_imp, exists_eq_left,
        not_or] at htoken
      have hsame : first = s := by
        rw [← hfirst, replace_of_not_contains
          (not_contains_of_not_mem hne hslash hplaced.category htoken.1)]
      have hsame' : text = s := by
        rw [← htext, hsame, replace_of_not_contains
          (not_contains_of_not_mem hnot.1 hnot.2 hplaced.library htoken.2)]
      rw [hsame, hsame']
      exact ⟨hnames.unwrapped, hnames.unwrapped⟩
  refine ⟨text, ?_, hstripped.2, hsplit, ?_⟩
  · have hname (hcontains : contains s (PassKind.token pass.kind) = true) :
        (some pass.name).filter (fun n => n ≠ "") = some pass.name ∧ pass.name ≠ "" := by
      have hmem : PassKind.token pass.kind ∈ split s '/' := by
        by_contra habsent
        rw [not_contains_of_not_mem hne hslash hplaced.category habsent] at hcontains
        cases hcontains
      simp [Option.filter_some, (hnames.category hmem).nonempty]
    rw [folderStructureForPass_eq, expandNamedToken_eq hstrip hname, hfirst,
      expandNamedToken_eq hstripped.1 fun hcontains =>
        ⟨rfl, (hnames.library (hthere hcontains)).nonempty⟩, htext]
  · rw [contains_eq_any (by decide) (by decide : '/' ∉ tokenAlbum.toList), hsplit, List.any_map,
      List.any_eq_false]
    intro piece hmem
    rw [Function.comp_apply, Bool.not_eq_true, fill]
    split
    · next hsame => exact (hnames.category_text (hsame ▸ hmem)).2
    · next hother =>
        split
        · next hsame =>
            rw [contains_inText (by decide) (by decide)]
            exact (hnames.library (hsame ▸ hmem)).noToken _ (by simp)
        · exact (hplaced.album piece hmem).resolve_left hother

/-! ## dates -/

/-- What is relied on of the date formatting: text is copied, with one percent sign for two, and
segments are formatted each by itself. -/
structure FormatsText (host : Host) (date : DateTime) : Prop where
  text : ∀ text, host.strftime date (replace text "%" "%%") = text
  slash : ∀ front back, host.strftime date (front ++ "/" ++ back) =
    host.strftime date front ++ "/" ++ host.strftime date back

variable {date : DateTime}

theorem segments_strftime (hformat : FormatsText host date) (text : String) :
    segments (host.strftime date text) =
      (split text '/').flatMap (fun piece => segments (host.strftime date piece)) := by
  obtain ⟨l, rfl⟩ : ∃ l, text = String.ofList l := ⟨text.toList, (String.ofList_toList).symm⟩
  induction l using sep_induction '/' with
  | piece l hl => simp [split_of_not_mem (s := String.ofList l) (by simpa using hl)]
  | next a b ha ih =>
      have hjoin : String.ofList (a ++ '/' :: b) = String.ofList a ++ "/" ++ String.ofList b := by
        rw [← String.toList_inj]
        simp
      have hsplit (front back : String) : split (front ++ "/" ++ back) '/' =
          split front '/' ++ split back '/' := split_append front back
      rw [hjoin, hformat.slash, segments, hsplit, hsplit, List.filter_append, ← segments,
        ← segments, ih, List.flatMap_append,
        split_of_not_mem (s := String.ofList a) (by simpa using ha)]
      simp

theorem StaysName.components {tokens : List String} {alone : Prop}
    (h : StaysName host name tokens alone) (hformat : FormatsText host date) :
    (segments (host.strftime date (inText host name))).map (sanitizePathComponent host.platform) =
      [sanitizePathComponent host.platform name] := by
  have hnormal := sanitizePathComponent_normal host.platform name
  have hshort : byteLen (sanitizePathComponent host.platform name) ≤ maxFilenameBytes := by
    by_cases hwindows : host.platform = .windows
    · exact h.short hwindows
    · exact byteLen_sanitizePathComponent hwindows name
  have hagain := sanitizePathComponent_again hshort
  rw [inText, hformat.text, segments, split_of_not_mem hnormal.plain.noSlash]
  simp [hnormal.nonempty, hagain]

/-- What a piece of the text gives, against what the segment means. -/
theorem components_fill {library piece : String} (hformat : FormatsText host date)
    (hplaced : WellPlaced s pass.kind) (hnames : NamesStay host s library pass)
    (hmem : piece ∈ split s '/') :
    (segments (host.strftime date (fill host pass library piece))).map
        (sanitizePathComponent host.platform) =
      if piece = "" then [] else segmentComponents host date pass library piece := by
  obtain ⟨hne, -, -, -⟩ := token_ne pass.kind
  unfold fill segmentComponents
  by_cases hcategory : piece = PassKind.token pass.kind
  · subst hcategory
    rw [if_pos rfl, if_neg hne, if_pos (hplaced.own hmem).symm]
    exact (hnames.category hmem).components hformat
  · have hother : some piece ≠ (TemplateKind.of pass.kind).categoryToken := by
      intro hsome
      cases hkind : pass.kind <;> rw [hkind] at hsome hcategory
      · exact hcategory (Option.some.inj hsome)
      · exact hcategory (Option.some.inj hsome)
      · cases hsome
    rw [if_neg hcategory, if_neg hother]
    by_cases htoken : piece = tokenLibrary
    · subst htoken
      rw [if_pos rfl, if_pos rfl, if_neg (by decide)]
      exact (hnames.library hmem).components hformat
    · rw [if_neg htoken, if_neg htoken]
      split
      · next hempty =>
          have hnothing : host.strftime date "" = "" := hformat.text ""
          rw [hempty, hnothing]
          rfl
      · rfl

theorem components_text {text library : String} (hformat : FormatsText host date)
    (hplaced : WellPlaced s pass.kind) (hnames : NamesStay host s library pass)
    (hsplit : split text '/' = (split s '/').map (fill host pass library)) :
    (segments (host.strftime date text)).map (sanitizePathComponent host.platform) =
      (segments s).flatMap (segmentComponents host date pass library) := by
  have hpieces (pieces : List String) (hsub : pieces ⊆ split s '/') :
      (pieces.flatMap (fun piece =>
          segments (host.strftime date (fill host pass library piece)))).map
            (sanitizePathComponent host.platform) =
        (pieces.filter (fun piece => piece ≠ "")).flatMap
          (segmentComponents host date pass library) := by
    induction pieces with
    | nil => rfl
    | cons piece pieces ih =>
        rw [List.cons_subset] at hsub
        rw [List.flatMap_cons, List.map_append, ih hsub.2,
          components_fill hformat hplaced hnames hsub.1]
        by_cases hempty : piece = "" <;> simp [hempty]
  rw [segments_strftime hformat, hsplit, List.flatMap_map]
  exact hpieces _ (List.Subset.refl _)

/-! ## no directory for the date -/

theorem chars_of_none {text : String} (h : eqIgnoreAsciiCase text noDateStructure = true) :
    text.toList.length = 4 ∧ '/' ∉ text.toList ∧ '%' ∉ text.toList := by
  rw [eqIgnoreAsciiCase, beq_iff_eq] at h
  have hmem (c : Char) (hc : c ∈ text.toList) :
      c.toLower ∈ noDateStructure.toList.map Char.toLower := h ▸ List.mem_map_of_mem hc
  have hlength := congrArg List.length h
  rw [List.length_map, List.length_map] at hlength
  refine ⟨hlength, fun hc => ?_, fun hc => ?_⟩
  · exact absurd (hmem _ hc) (by decide)
  · exact absurd (hmem _ hc) (by decide)

/-- With a name in it neither the text nor the template says that there is no directory. -/
theorem StaysName.not_none {text library token : String} {tokens : List String}
    (h : StaysName host name tokens (s = token)) (hlong : 4 < token.toList.length)
    (hslash : '/' ∉ token.toList) (hmem : token ∈ split s '/')
    (hsplit : split text '/' = (split s '/').map (fill host pass library))
    (hfill : fill host pass library token = inText host name) :
    eqIgnoreAsciiCase text noDateStructure = eqIgnoreAsciiCase s noDateStructure := by
  have htemplate : eqIgnoreAsciiCase s noDateStructure = false := by
    refine Bool.eq_false_iff.mpr fun hnone => ?_
    have hthere := contains_of_mem (by rintro rfl; simp at hlong) hslash hmem
    have hle := (containsFrom_iff.mp hthere).length_le
    have hlength := (chars_of_none hnone).1
    omega
  rw [htemplate]
  refine Bool.eq_false_iff.mpr fun hnone => ?_
  obtain ⟨-, hplain, hpercent⟩ := chars_of_none hnone
  rw [split_of_not_mem hplain] at hsplit
  obtain ⟨piece, hpiece, htext⟩ := List.map_eq_singleton_iff.mp hsplit.symm
  obtain rfl : token = piece := by simpa [hpiece] using hmem
  rw [hfill] at htext
  have hname : inText host name = sanitizePathComponent host.platform name := by
    refine replace_of_not_contains (Bool.eq_false_iff.mpr fun hcontains => hpercent ?_)
    have hmem := (containsFrom_iff.mp hcontains).subset List.mem_cons_self
    rw [← htext, inText, replace, String.toList_ofList]
    exact mem_double hmem
  have hdate := h.someDate (split_injective (hpiece.trans (split_of_not_mem hslash).symm))
  rw [← hname, htext, hnone] at hdate
  cases hdate

/-- The text of a pass says that there is no directory exactly if its template does. -/
theorem none_of_split {text library : String} (hnames : NamesStay host s library pass)
    (hsplit : split text '/' = (split s '/').map (fill host pass library)) :
    eqIgnoreAsciiCase text noDateStructure = eqIgnoreAsciiCase s noDateStructure := by
  obtain ⟨-, hslash, -, hlibrary⟩ := token_ne pass.kind
  by_cases hcategory : PassKind.token pass.kind ∈ split s '/'
  · have hlong : 4 < (PassKind.token pass.kind).toList.length := by cases pass.kind <;> decide
    exact (hnames.category hcategory).not_none hlong hslash hcategory hsplit (if_pos rfl)
  · by_cases htoken : tokenLibrary ∈ split s '/'
    · have hother : tokenLibrary ≠ PassKind.token pass.kind := fun h => hcategory (h ▸ htoken)
      refine (hnames.library htoken).not_none (by decide) (by decide) htoken hsplit ?_
      rw [fill, if_neg hother, if_pos rfl]
    · have hsame : (split s '/').map (fill host pass library) = split s '/' := by
        refine List.map_congr_left (g := id) (fun piece hmem => ?_) |>.trans (List.map_id _)
        have hneither : piece ≠ PassKind.token pass.kind ∧ piece ≠ tokenLibrary :=
          ⟨fun h => hcategory (h ▸ hmem), fun h => htoken (h ▸ hmem)⟩
        simp [fill, hneither]
      rw [split_injective (hsplit.trans hsame)]

/-! ## the directory of a pass -/

/-- **The directory of a pass is that of its template, segment by segment**, as long as the names
that go into an accepted template stay names. -/
theorem localDownloadDir_segmentwise (host : Host) (directory : Path)
    (folderStructure folderStructureAlbums folderStructureSmartFolders library : String)
    (pass : AlbumPass) (date : DateTime) (hformat : FormatsText host date)
    (hvalid : validateTemplateTokens (templateFor folderStructure folderStructureAlbums
      folderStructureSmartFolders pass.kind) (.of pass.kind) = .ok ())
    (hnames : NamesStay host (stripPythonWrapper (templateFor folderStructure
      folderStructureAlbums folderStructureSmartFolders pass.kind)) library pass) :
    localDownloadDir host directory (folderStructureForPass host folderStructure
        folderStructureAlbums folderStructureSmartFolders library pass) date (some pass.name) =
      segmentwiseDir host directory (templateFor folderStructure folderStructureAlbums
        folderStructureSmartFolders pass.kind) library pass date := by
  have hplaced := (checked_of_validate hvalid).wellPlaced
  obtain ⟨text, htext, hstrip, hsplit, halbum⟩ := folderStructureForPass_split rfl hplaced hnames
  rw [htext]
  unfold localDownloadDir segmentwiseDir
  dsimp only
  rw [none_of_split hnames hsplit]
  split
  · rfl
  · have hexpanded : expandNamedToken host text tokenAlbum (some pass.name) = text := by
      unfold expandNamedToken
      rw [hstrip, if_neg (by simp [halbum])]
    have hcomponents := components_text hformat hplaced hnames hsplit
    rw [hexpanded, ← hcomponents, List.foldl_map]
    rfl

/-! ## an album with the name of a marker -/

/-- One percent sign for two. -/
def unescapePercent : List Char → List Char
  | '%' :: '%' :: l => '%' :: unescapePercent l
  | c :: l => c :: unescapePercent l
  | [] => []

/-- A host that formats templates without specifiers. -/
def textHost : Host where
  platform := .linux
  strftime _ format := String.ofList (unescapePercent format.toList)
  sha256 _ := []
  base64 id := id
  globMatches _ _ := false
  readDirEntries _ := []

theorem textHost_formatsText (date : DateTime) : FormatsText textHost date where
  text text := by
    have hlist (l : List Char) : unescapePercent (replaceFrom ['%'] ['%', '%'] 0 l) = l := by
      induction l using @piece_induction _ _ ['%'] _ (by simp) with
      | nil => rfl
      | found back ih =>
          rw [replaceFrom_pattern (by simp)]
          simp [unescapePercent, ih]
      | step c l hfront ih =>
          have hother : c ≠ '%' := fun h => by simp [h] at hfront
          rw [replaceFrom_cons hfront]
          simp [unescapePercent, hother, ih]
    have htext := hlist text.toList
    rw [← String.toList_inj]
    simpa [textHost, replace] using htext
  slash front back := by
    have hlist (a b : List Char) :
        unescapePercent (a ++ '/' :: b) = unescapePercent a ++ '/' :: unescapePercent b := by
      fun_induction unescapePercent a with
      | case1 l ih => simp [unescapePercent, ih]
      | case2 c l hother ih =>
          have hnext : ∀ rest, c = '%' → l ++ '/' :: b = '%' :: rest → False := by
            intro rest hc hl
            cases l with
            | nil => simp at hl
            | cons d l => exact hother l hc (by rw [(List.cons.inj hl).1])
          rw [List.cons_append, unescapePercent.eq_2 _ _ hnext, ih]
          rfl
      | case3 => simp [unescapePercent]
    have hparts := hlist front.toList back.toList
    rw [← String.toList_inj]
    simpa [textHost] using hparts

/-- The directory of an album, in a shared library. -/
theorem localDownloadDir_segmentwise_trip :
    localDownloadDir textHost "/photos" (folderStructureForPass textHost "none"
        "\x7blibrary\x7d/\x7balbum\x7d" "none" "SharedSync-ABCDEFGH-1234"
        ⟨.album, "100% Trip", none, []⟩) ⟨0, 0⟩ (some "100% Trip") =
      segmentwiseDir textHost "/photos" "\x7blibrary\x7d/\x7balbum\x7d"
        "SharedSync-ABCDEFGH-1234" ⟨.album, "100% Trip", none, []⟩ ⟨0, 0⟩ := by
  refine localDownloadDir_segmentwise textHost "/photos" "none"
    "\x7blibrary\x7d/\x7balbum\x7d" "none" "SharedSync-ABCDEFGH-1234"
    ⟨.album, "100% Trip", none, []⟩ ⟨0, 0⟩ (textHost_formatsText _) (by rfl)
    ⟨by decide +kernel, fun _ => ?_, fun _ => ?_⟩
  · exact ⟨by decide, nofun, by decide +kernel, fun h => absurd h (by decide +kernel)⟩
  · exact ⟨by decide +kernel, nofun, by decide +kernel, fun h => absurd h (by decide +kernel)⟩

/-- The photos of an album named "none" are put among those of no album. -/
theorem none_album_has_no_directory :
    ¬ ∀ (host : Host) (directory : Path) (folderStructure folderStructureAlbums
        folderStructureSmartFolders library : String) (pass : AlbumPass) (date : DateTime),
      FormatsText host date →
      validateTemplateTokens (templateFor folderStructure folderStructureAlbums
        folderStructureSmartFolders pass.kind) (.of pass.kind) = .ok () →
      localDownloadDir host directory (folderStructureForPass host folderStructure
          folderStructureAlbums folderStructureSmartFolders library pass) date (some pass.name) =
        segmentwiseDir host directory (templateFor folderStructure folderStructureAlbums
          folderStructureSmartFolders pass.kind) library pass date := by
  intro h
  have hdir := h textHost "/photos" "none" "\x7balbum\x7d" "none" "PrimarySync"
    ⟨.album, "none", none, []⟩ ⟨0, 0⟩ (textHost_formatsText _) (by rfl)
  have hplaced : localDownloadDir textHost "/photos" (folderStructureForPass textHost "none"
      "\x7balbum\x7d" "none" "PrimarySync" ⟨.album, "none", none, []⟩) ⟨0, 0⟩ (some "none") =
        "/photos" := by decide +kernel
  have hmeant : segmentwiseDir textHost "/photos" "\x7balbum\x7d" "PrimarySync"
      ⟨.album, "none", none, []⟩ ⟨0, 0⟩ = "/photos/none" := by decide +kernel
  exact absurd (hplaced.symm.trans (hdir.trans hmeant)) (by decide)

/-! ## components that are made again -/

theorem sanitized_again (hplatform : host.platform ≠ .windows) :
    sanitizePathComponent host.platform (sanitizePathComponent host.platform name) =
      sanitizePathComponent host.platform name :=
  sanitizePathComponent_again (byteLen_sanitizePathComponent hplatform name)

/-- A piece of a template with a name in the place of a token. -/
def pieceComponents (host : Host) (date : DateTime) (token name piece : String) : List String :=
  if piece = token then [sanitizePathComponent host.platform name]
  else (segments (host.strftime date (replace piece token (inText host name)))).map
    (sanitizePathComponent host.platform)

theorem components_replace (hne : token ≠ "") (hslash : '/' ∉ token.toList)
    (hplatform : host.platform ≠ .windows) (hformat : FormatsText host date) :
    (segments (host.strftime date (replace s token (inText host name)))).map
        (sanitizePathComponent host.platform) =
      (split s '/').flatMap (pieceComponents host date token name) := by
  rw [segments_strftime hformat, split_replace hne hslash (not_mem_inText (by decide)),
    List.flatMap_map, List.map_flatMap]
  refine List.flatMap_congr fun piece _ => ?_
  unfold pieceComponents
  split
  · next htoken =>
      have hnormal := sanitizePathComponent_normal host.platform name
      rw [htoken, replace_self hne, inText, hformat.text, segments,
        split_of_not_mem hnormal.plain.noSlash]
      simp [hnormal.nonempty, sanitized_again hplatform]
  · rfl

theorem components_expand (hne : token ≠ "") (hslash : '/' ∉ token.toList)
    (hplatform : host.platform ≠ .windows) (hformat : FormatsText host date) (hname : name ≠ "")
    (template : String) :
    (segments (host.strftime date (expandNamedToken host template token (some name)))).map
        (sanitizePathComponent host.platform) =
      (split (stripPythonWrapper template) '/').flatMap (pieceComponents host date token name) := by
  have hexpand : expandNamedToken host template token (some name) =
      replace (stripPythonWrapper template) token (inText host name) :=
    expandNamedToken_eq rfl (fun _ => ⟨rfl, hname⟩)
  rw [hexpand]
  exact components_replace hne hslash hplatform hformat

/-- **A component that is made once is not changed any more**: a name that goes into a template is
made a component there, and is that component in the directory. -/
theorem sanitizePathComponent_once (host : Host) (name : String)
    (hplatform : host.platform ≠ .windows) :
    sanitizePathComponent host.platform name ∉ ["", ".", ".."] ∧
    (∀ c ∈ ['/', '\\', '\x00'], c ∉ (sanitizePathComponent host.platform name).toList) ∧
    sanitizePathComponent host.platform (sanitizePathComponent host.platform name) =
      sanitizePathComponent host.platform name ∧
    ∀ date, FormatsText host date → name ≠ "" → ∀ template,
      (∀ token ∈ [tokenAlbum, tokenSmartFolder, tokenLibrary],
        (segments (host.strftime date (expandNamedToken host template token (some name)))).map
            (sanitizePathComponent host.platform) =
          (split (stripPythonWrapper template) '/').flatMap
            (pieceComponents host date token name)) ∧
      ∀ directory, eqIgnoreAsciiCase template noDateStructure = false →
        localDownloadDir host directory template date (some name) =
          ((split (stripPythonWrapper template) '/').flatMap
            (pieceComponents host date tokenAlbum name)).foldl join directory := by
  have hnormal := sanitizePathComponent_normal host.platform name
  refine ⟨by simp [hnormal.nonempty, hnormal.notDot, hnormal.notParent], fun c hc hmem => ?_,
    sanitized_again hplatform, fun date hformat hname template => ⟨fun token htoken => ?_,
      fun directory hdate => ?_⟩⟩
  · have hclean := hnormal.clean c hmem
    have hinvalid : ∀ c ∈ ['/', '\\', '\x00'], isInvalid c = true := by
      simp [isInvalid, Str.isControl]
    rw [hinvalid c hc] at hclean
    cases hclean
  · have htokens : ∀ token ∈ [tokenAlbum, tokenSmartFolder, tokenLibrary],
        token ≠ "" ∧ '/' ∉ token.toList := by decide
    exact components_expand (htokens token htoken).1 (htokens token htoken).2 hplatform hformat
      hname template
  · rw [localDownloadDir, if_neg (by simp [hdate]),
      ← components_expand (by decide) (by decide) hplatform hformat hname, segments,
      List.foldl_map]

/-- An album whose name looks like a path. -/
theorem sanitizePathComponent_once_dots :
    textHost.platform ≠ .windows ∧
    sanitizePathComponent textHost.platform "../Trip. " = "__Trip" ∧
    sanitizePathComponent textHost.platform "__Trip" = "__Trip" ∧
    localDownloadDir textHost "/photos" "\x7balbum\x7d/Year" ⟨0, 0⟩ (some "../Trip. ") =
      ((split (stripPythonWrapper "\x7balbum\x7d/Year") '/').flatMap
        (pieceComponents textHost ⟨0, 0⟩ tokenAlbum "../Trip. ")).foldl join "/photos" := by
  have hplatform : textHost.platform ≠ .windows := by decide
  obtain ⟨-, -, hagain, hdirs⟩ := sanitizePathComponent_once textHost "../Trip. " hplatform
  have hmade : sanitizePathComponent textHost.platform "../Trip. " = "__Trip" := by
    decide +kernel
  rw [hmade] at hagain
  have hdir := (hdirs ⟨0, 0⟩ (textHost_formatsText _) (by decide)
    "\x7balbum\x7d/Year").2 "/photos" (by decide +kernel)
  exact ⟨hplatform, hmade, hagain, hdir⟩

end Kei.Download
