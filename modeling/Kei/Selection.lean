import Kei.Lib.BTreeSet
import Kei.Lib.Fallible
import Kei.Lib.Str
import Mathlib.Data.String.Basic

/-!
# Kei.Selection

The selectors of the `--album`, `--smart-folder` and `--library` flags: the
grammar of their raw entries, the three parsers, and the raw form that a
parsed selector is written back as.

The three parsers run one loop, `collect`, over a `Grammar` that holds what
differs between them: the flag in the messages, the sentinel words with what
excluding each one does, and the check every name must pass.
-/

namespace Kei.Selection

open Str
open Fallible

/-! ## selectors -/

/-- Which names of a category are left out of a sweep over all of it. -/
abbrev ExcludeSet := BTreeSet String

/-- Album selection. -/
inductive AlbumSelector where
  | none
  | all (excluded : ExcludeSet)
  | named (included : BTreeSet String) (excluded : ExcludeSet)
  deriving DecidableEq

/-- Smart-folder selection. -/
inductive SmartFolderSelector where
  | none
  | all (includeSensitive : Bool) (excluded : ExcludeSet)
  | named (included : BTreeSet String) (excluded : ExcludeSet)
  deriving DecidableEq

/-- Library selection. -/
structure LibrarySelector where
  /-- Sentinel `primary`: the PrimarySync zone. -/
  primary : Bool
  /-- Sentinel `shared`: every SharedSync zone. -/
  sharedAll : Bool
  /-- Explicit zone names. -/
  named : BTreeSet String
  /-- `!name` exclusions. -/
  excluded : ExcludeSet
  deriving DecidableEq

/-- Every user album. -/
def AlbumSelector.default : AlbumSelector := .all BTreeSet.empty

/-- The primary library alone. -/
def LibrarySelector.default : LibrarySelector := ⟨true, false, BTreeSet.empty, BTreeSet.empty⟩

/-- The selector resolves to no library. -/
def LibrarySelector.isEmpty (sel : LibrarySelector) : Bool :=
  !sel.primary && !sel.sharedAll && sel.named.isEmpty

/-! ## entries -/

/-- One raw entry, read as a name and the grammar around it. -/
structure SelectorToken where
  name : String
  exclude : Bool
  escaped : Bool
  deriving DecidableEq

/-- Parse a raw entry.  A leading `=` escapes the sentinel grammar, so that
names like `all`, `none` or `!Drafts` can be selected literally. -/
def selectorToken (raw flag : String) : Except String SelectorToken :=
  match stripPrefix raw '=' with
  | some literal => do
      ensure (literal ≠ "") s!"`--{flag}` literal value cannot be empty."
      return ⟨literal, false, true⟩
  | none => do
      let (name, exclude) :=
        match stripPrefix raw '!' with
        | some r => (r, true)
        | none => (raw, false)
      ensure (name ≠ "") s!"`--{flag}` needs a value."
      ensure (startsWith name '=' = false)
        s!"`!=value` is not valid for `--{flag}`. Use `=value` for a literal value or `!value` for an exclusion."
      return ⟨name, exclude, false⟩

/-- Write a name so that it reads back as that name. -/
def escapeIfNeeded (name : String) (sentinels : List String) : String :=
  if startsWith name '!' || startsWith name '=' || sentinels.any (eqIgnoreAsciiCase name) then
    "=" ++ name
  else
    name

/-- Insert, rejecting a value that is already there. -/
def insertUnique (set : BTreeSet String) (value flag displayName : String) :
    Except String (BTreeSet String) :=
  if value ∈ set then
    .error s!"`--{flag} {displayName}` was provided more than once."
  else
    .ok (set.insert value)

/-! ## the loop of the three parsers -/

/-- What `!word` does for a sentinel word. -/
inductive SentinelExclusion where
  /-- The entry is rejected with this message. -/
  | rejected (message : String)
  /-- The word joins the exclusions. -/
  | recorded
  deriving DecidableEq

/-- What differs between the parsers' loops. -/
structure Grammar where
  flag : String
  /-- The sentinel words, in the order the loop compares them. -/
  sentinels : List (String × SentinelExclusion)
  /-- A check on every name, sentinel or not. -/
  checkName : String → Except String Unit

/-- The sentinel words of a grammar. -/
def Grammar.words (g : Grammar) : List String := g.sentinels.map (·.1)

/-- The sentinel a name spells, whatever the case of its letters. -/
def Grammar.sentinel? (g : Grammar) (name : String) : Option (String × SentinelExclusion) :=
  g.sentinels.find? (fun s => eqIgnoreAsciiCase name s.1)

/-- What one entry contributes. -/
inductive Entry where
  | sentinel (word : String)
  | excludes (name : String)
  | includes (name : String)
  deriving DecidableEq

/-- The branch the loop body takes for one raw entry. -/
def classify (g : Grammar) (entry : String) : Except String Entry := do
  let trimmed := trim entry
  ensure (trimmed ≠ "") s!"`--{g.flag}` needs a value."
  let token ← selectorToken trimmed g.flag
  g.checkName token.name
  match if token.escaped then none else g.sentinel? token.name with
  | some (word, .rejected message) =>
      ensure (token.exclude = false) message
      return .sentinel word
  | some (word, .recorded) => return if token.exclude then .excludes word else .sentinel word
  | none => return if token.exclude then .excludes token.name else .includes token.name

/-- What the loop has gathered: the sentinels seen (the source's `has_all`,
`has_none`, ...), the included and the excluded names. -/
structure Collected where
  words : BTreeSet String
  included : BTreeSet String
  excluded : BTreeSet String

/-- The sentinel `word` was given. -/
def Collected.has (c : Collected) (word : String) : Bool := decide (word ∈ c.words)

/-- Add one entry. -/
def record (g : Grammar) (c : Collected) : Entry → Except String Collected
  | .sentinel word => .ok { c with words := c.words.insert word }
  | .excludes name => do
      let excluded ← insertUnique c.excluded name g.flag ("!" ++ name)
      return { c with excluded }
  | .includes name => do
      let included ← insertUnique c.included name g.flag name
      return { c with included }

/-- One round of the loop. -/
def collectEntry (g : Grammar) (c : Collected) (entry : String) : Except String Collected := do
  let e ← classify g entry
  record g c e

/-- Before the first round. -/
def Collected.new : Collected := ⟨BTreeSet.empty, BTreeSet.empty, BTreeSet.empty⟩

/-- The loop over the raw entries. -/
def collect (g : Grammar) (raw : List String) : Except String Collected :=
  raw.foldlM (collectEntry g) Collected.new

/-- The same name must not be included and excluded. -/
def contradictionCheck (category : String) (included excluded : BTreeSet String) :
    Except String Unit :=
  match included.intersection excluded with
  | name :: _ => .error s!"`--{category}` includes and excludes `{name}`. Pick one."
  | [] => .ok ()

/-! ## the three parsers -/

def albumGrammar : Grammar where
  flag := "album"
  sentinels :=
    [("all", .rejected "`--album !all` is not valid. Use `--album none` instead."),
     ("none", .rejected "`--album !none` is not valid. Omit that value instead.")]
  checkName _ := .ok ()

/-- After the loop of `parseAlbumSelector`. -/
def albumOutcome (c : Collected) : Except String AlbumSelector := do
  contradictionCheck "album" c.included c.excluded
  if c.has "none" then
    ensure (c.has "all" = false ∧ c.included.isEmpty ∧ c.excluded.isEmpty)
      "`--album none` cannot be combined with other `--album` values."
    return .none
  else if c.has "all" then
    ensure (c.included.isEmpty = true)
      "`--album all` cannot be combined with album names. Use `--album !name` to exclude one."
    return .all c.excluded
  else if !c.included.isEmpty then
    return .named c.included c.excluded
  else
    return .all c.excluded

/-- `defaultToAll`: no `--album` flag was passed at all. -/
def parseAlbumSelector (raw : List String) (defaultToAll : Bool) :
    Except String AlbumSelector :=
  if raw.isEmpty then
    .ok (if defaultToAll then AlbumSelector.default else .none)
  else do
    let c ← collect albumGrammar raw
    albumOutcome c

def smartFolderGrammar : Grammar where
  flag := "smart-folder"
  sentinels :=
    [("all", .rejected "`--smart-folder !all` is not valid."),
     ("all-with-sensitive", .rejected "`--smart-folder !all-with-sensitive` is not valid."),
     ("none", .rejected "`--smart-folder !none` is not valid.")]
  checkName _ := .ok ()

/-- After the loop of `parseSmartFolderSelector`. -/
def smartFolderOutcome (c : Collected) : Except String SmartFolderSelector := do
  contradictionCheck "smart-folder" c.included c.excluded
  if c.has "none" then
    ensure (c.has "all" = false ∧ c.has "all-with-sensitive" = false ∧ c.included.isEmpty
        ∧ c.excluded.isEmpty)
      "`--smart-folder none` cannot be combined with other `--smart-folder` values."
    return .none
  else if c.has "all" || c.has "all-with-sensitive" then
    ensure ((c.has "all" && c.has "all-with-sensitive") = false)
      "`--smart-folder all` and `--smart-folder all-with-sensitive` cannot be used together."
    ensure (c.included.isEmpty = true)
      "`--smart-folder all` cannot be combined with smart folder names. Use `--smart-folder !name` to exclude one."
    return .all (c.has "all-with-sensitive") c.excluded
  else if !c.included.isEmpty then
    return .named c.included c.excluded
  else
    return .all false c.excluded

def parseSmartFolderSelector (raw : List String) : Except String SmartFolderSelector :=
  if raw.isEmpty then
    .ok .none
  else do
    let c ← collect smartFolderGrammar raw
    smartFolderOutcome c

/-- Zone names never hold a colon; the `shared:Owner` aliases are not resolved. -/
def checkLibraryName (name : String) : Except String Unit :=
  ensure (containsChar name ':' = false)
    ("`--library` accepts `primary`, `shared`, `all`, or zone names like `PrimarySync` and " ++
      s!"`SharedSync-XYZ`. `{name}` is not supported. Run `kei list libraries` to see the " ++
      "available zone names.")

def libraryGrammar : Grammar where
  flag := "library"
  sentinels :=
    [("all", .rejected "`--library !all` is not valid."),
     ("none", .rejected "`--library !none` is not valid."),
     ("primary", .recorded),
     ("shared", .recorded)]
  checkName := checkLibraryName

/-- The selector of what the library loop collected.  A bare `!name` means the
category default, which is the primary library. -/
def librarySelector (c : Collected) : LibrarySelector :=
  let primary := c.has "primary" || c.has "all"
  let sharedAll := c.has "shared" || c.has "all"
  { primary := primary || (!sharedAll && c.included.isEmpty && !c.excluded.isEmpty),
    sharedAll,
    named := c.included,
    excluded := c.excluded }

/-- After the loop of `parseLibrarySelector`. -/
def libraryOutcome (c : Collected) : Except String LibrarySelector := do
  ensure (c.has "none" = false)
    "`--library none` is not allowed because kei needs at least one iCloud library to sync."
  let sel := librarySelector c
  contradictionCheck "library" sel.named sel.excluded
  ensure (sel.isEmpty = false)
    "`--library` did not select any libraries. Choose `primary`, `shared`, or a zone name."
  return sel

def parseLibrarySelector (raw : List String) : Except String LibrarySelector :=
  if raw.isEmpty then
    .ok LibrarySelector.default
  else do
    let c ← collect libraryGrammar raw
    libraryOutcome c

/-! ## the raw form of a selector -/

/-- The raw entries of the excluded names. -/
def renderExcluded (excluded : ExcludeSet) : List String := excluded.elems.map ("!" ++ ·)

/-- The raw entries of the included names. -/
def renderIncluded (included : BTreeSet String) (sentinels : List String) : List String :=
  included.elems.map (escapeIfNeeded · sentinels)

def AlbumSelector.toRaw : AlbumSelector → List String
  | .none => ["none"]
  | .all excluded => "all" :: renderExcluded excluded
  | .named included excluded =>
      renderIncluded included ["all", "none"] ++ renderExcluded excluded

def SmartFolderSelector.toRaw : SmartFolderSelector → List String
  | .none => []
  | .all includeSensitive excluded =>
      (if includeSensitive then "all-with-sensitive" else "all") :: renderExcluded excluded
  | .named included excluded =>
      renderIncluded included ["all", "all-with-sensitive", "none"] ++ renderExcluded excluded

def LibrarySelector.toRaw (sel : LibrarySelector) : List String :=
  (if sel.primary && sel.sharedAll && sel.named.isEmpty then
    ["all"]
  else
    (if sel.primary then ["primary"] else []) ++ (if sel.sharedAll then ["shared"] else []) ++
      renderIncluded sel.named ["primary", "shared", "all", "none"])
    ++ renderExcluded sel.excluded

end Kei.Selection
