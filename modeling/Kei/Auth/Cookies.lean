import Kei.Lib.Str
import Mathlib.Data.List.Induction
import Mathlib.Data.List.Pairwise

/-!
# Kei.Auth.Cookies

The session data and the cookies of a session, and the files they are kept in.

A jar cannot be listed.  What it sends to the hosts of the account is asked
for, and kept as pairs of names and values; a later session adds the pairs to
an empty jar, under the domain that the hosts share.
-/

namespace Kei.Auth

/-! ## the jar -/

structure Url where
  host : String
  path : String
  deriving DecidableEq

/-- What a `Set-Cookie` text says. -/
structure SetCookie where
  name : String
  value : String
  domain : Option String
  path : Option String
  expires : Option Int
  maxAge : Option Int
  deriving DecidableEq

/-- A name and a value with no more than a domain. -/
def SetCookie.plain (name value : String) (domain : Option String) : SetCookie :=
  ⟨name, value, domain, none, none, none⟩

structure Cookie where
  domain : String
  path : String
  name : String
  value : String
  hostOnly : Bool
  expires : Option Int
  deriving DecidableEq

namespace Cookie

def key (c : Cookie) : String × String × String := (c.domain, c.path, c.name)

def isExpired (now : Int) (c : Cookie) : Bool := c.expires.any (· ≤ now)

end Cookie

def pairText (name value : String) : String := name ++ "=" ++ value

def hasSuffix (s suffix : String) : Bool := suffix.toList.isSuffixOf s.toList

/-- The host is in the domain. -/
def domainMatch (host domain : String) : Bool := host = domain || hasSuffix host ("." ++ domain)

/-- The path is at or below that of a cookie. -/
def pathMatch (path cookiePath : String) : Bool :=
  path = cookiePath ||
    (cookiePath.toList.isPrefixOf path.toList &&
      (cookiePath.toList.getLast? = some '/' ||
        (path.toList.drop cookiePath.length).head? = some '/'))

/-- The directory of a path. -/
def defaultPath (path : String) : String :=
  let directory := (path.toList.reverse.dropWhile (· ≠ '/')).drop 1
  if path.toList.head? = some '/' && !directory.isEmpty then String.ofList directory.reverse
  else "/"

def Cookie.isSentTo (now : Int) (url : Url) (c : Cookie) : Bool :=
  (if c.hostOnly then url.host = c.domain else domainMatch url.host c.domain) &&
    pathMatch url.path c.path && !c.isExpired now

/-- The hosts whose cookies are kept. -/
def appleHosts (isCn : Bool) : List String :=
  if isCn then ["setup.icloud.com.cn", "www.icloud.com.cn", "idmsa.apple.com.cn"]
  else ["setup.icloud.com", "www.icloud.com", "idmsa.apple.com"]

def appleUrl (host : String) : String := "https://" ++ host ++ "/"

def broadCookieDomain (host : String) : Option String :=
  if hasSuffix host ".icloud.com.cn" || host = "icloud.com.cn" then some "icloud.com.cn"
  else if hasSuffix host ".apple.com.cn" || host = "apple.com.cn" then some "apple.com.cn"
  else if hasSuffix host ".icloud.com" || host = "icloud.com" then some "icloud.com"
  else if hasSuffix host ".apple.com" || host = "apple.com" then some "apple.com"
  else none

def broadDomains : List String := ["icloud.com.cn", "apple.com.cn", "icloud.com", "apple.com"]

/-- The crates for cookies and addresses. -/
structure CookieCrates where
  /-- The order in which a jar goes through its cookies. -/
  arrange : List Cookie → List Cookie
  arrange_perm : ∀ cookies, (arrange cookies).Perm cookies
  parseUrl : String → Option Url
  parseUrl_apple : ∀ isCn, ∀ host ∈ appleHosts isCn, parseUrl (appleUrl host) = some ⟨host, "/"⟩
  parse : String → Option SetCookie
  /-- Names and values have no semicolon, and are read back as they are. -/
  parse_pair : ∀ text c, parse text = some c →
    ';' ∉ (pairText c.name c.value).toList ∧
      parse (pairText c.name c.value) = some (.plain c.name c.value none) ∧
        ∀ domain ∈ broadDomains,
          parse (pairText c.name c.value ++ "; Domain=" ++ domain) =
            some (.plain c.name c.value (some domain))

variable {crates : CookieCrates}

/-- Cookies by domain, path and name. -/
structure Jar (crates : CookieCrates) where
  cookies : List Cookie
  keyed : cookies.Pairwise (fun c c' => c.key ≠ c'.key)
  parsed : ∀ c ∈ cookies, ∃ text p, crates.parse text = some p ∧ p.name = c.name ∧
    p.value = c.value

namespace Jar

def empty : Jar crates := ⟨[], .nil, fun _ h => absurd h List.not_mem_nil⟩

/-- The cookie takes the place of the one with its key, which goes if this one has expired. -/
def put (jar : Jar crates) (now : Int) (c : Cookie)
    (h : ∃ text p, crates.parse text = some p ∧ p.name = c.name ∧ p.value = c.value) :
    Jar crates where
  cookies := jar.cookies.filter (fun c' => c'.key ≠ c.key) ++ if c.isExpired now then [] else [c]
  keyed := by
    refine List.pairwise_append.mpr ⟨jar.keyed.filter _, ?_, fun c' hc' c'' hc'' => ?_⟩
    · split
      · exact .nil
      · exact List.pairwise_singleton _ _
    · split at hc''
      · contradiction
      · rw [List.mem_singleton.mp hc'']
        exact of_decide_eq_true (List.mem_filter.mp hc').2
  parsed c' hc' := by
    rcases List.mem_append.mp hc' with hold | hnew
    · exact jar.parsed c' (List.mem_filter.mp hold).1
    · split at hnew
      · contradiction
      · rw [List.mem_singleton.mp hnew]
        exact h

/-- The cookie that a text of an answer from `url` makes. -/
def cookieOf (now : Int) (url : Url) (p : SetCookie) : Cookie where
  domain := p.domain.getD url.host
  path := p.path.getD (defaultPath url.path)
  name := p.name
  value := p.value
  hostOnly := p.domain.isNone
  expires := match p.maxAge with
    | some age => some (now + age)
    | none => p.expires

/-- `Jar::add_cookie_str`. -/
def addCookieStr (jar : Jar crates) (now : Int) (url : Url) (text : String) : Jar crates :=
  match h : crates.parse text with
  | none => jar
  | some p =>
      if p.domain.all (domainMatch url.host) then
        jar.put now (cookieOf now url p) ⟨text, p, h, rfl, rfl⟩
      else jar

/-- The texts of what is sent. -/
def pairs (jar : Jar crates) (now : Int) (url : Url) : List String :=
  (crates.arrange (jar.cookies.filter (·.isSentTo now url))).map (fun c => pairText c.name c.value)

/-- A character that no header may have. -/
def isControl (c : Char) : Bool := (c.toNat < 32 && c ≠ '\t') || c.toNat = 127

/-- `Jar::cookies`: the value of the header, if there is one. -/
def header (jar : Jar crates) (now : Int) (url : Url) : Option String :=
  let value := "; ".intercalate (jar.pairs now url)
  if value = "" || value.toList.any isControl then none else some value

end Jar

/-- `str::split` at `"; "`. -/
def splitPairs : List Char → List (List Char)
  | [] => [[]]
  | ';' :: ' ' :: cs => [] :: splitPairs cs
  | c :: cs =>
      match splitPairs cs with
      | [] => [[c]]
      | piece :: pieces => (c :: piece) :: pieces

/-- The pairs that a jar sends. -/
def Jar.sends (jar : Jar crates) (now : Int) (url : Url) : List String :=
  match jar.header now url with
  | none => []
  | some value => (splitPairs value.toList).map String.ofList

/-! ## the files -/

/-- A cookie in the file. -/
structure CookieEntry where
  url : String
  cookie : String
  deriving DecidableEq

/-- What is read at the path of the cookies. -/
inductive CookieFile where
  | absent
  | unreadable
  /-- Not the JSON of a list of cookies. -/
  | corrupt
  | entries (entries : List CookieEntry)
  deriving DecidableEq

inductive SessionValue where
  | string (s : String)
  /-- Another JSON value, as a text. -/
  | other (text : String)

def SessionValue.text : SessionValue → String
  | .string s => s
  | .other text => text

/-- What is read at the path of the session data. -/
inductive SessionFile where
  | unusable
  | map (values : String → Option SessionValue)

abbrev SessionData := String → Option String

def SessionFile.load : SessionFile → SessionData
  | .unusable => fun _ => none
  | .map values => fun key => (values key).map SessionValue.text

structure Files where
  cookies : CookieFile
  session : SessionFile

def isCookieExpired (crates : CookieCrates) (now : Int) (text : String) : Bool :=
  (crates.parse text).any (fun p => p.expires.any (· < now))

/-- A cookie of the file is added to the jar. -/
def Jar.addEntry (now : Int) (jar : Jar crates) (entry : CookieEntry) : Jar crates :=
  if isCookieExpired crates now entry.cookie then jar
  else
    match crates.parseUrl entry.url with
    | none => jar
    | some url =>
        jar.addCookieStr now url
          (match broadCookieDomain url.host with
          | some domain => entry.cookie ++ "; Domain=" ++ domain
          | none => entry.cookie)

def Jar.load (now : Int) (entries : List CookieEntry) : Jar crates :=
  entries.foldl (Jar.addEntry now) .empty

/-- The jar that the file makes. -/
def CookieFile.jar (crates : CookieCrates) (now : Int) : CookieFile → Jar crates
  | .entries kept => .load now kept
  | .absent | .unreadable | .corrupt => .empty

/-! ## a session -/

structure CookieSession (crates : CookieCrates) where
  isCn : Bool
  jar : Jar crates
  sessionData : SessionData
  files : Files

/-- `Session::build`. -/
def CookieSession.build (crates : CookieCrates) (isCn : Bool) (now : Int) (files : Files) :
    CookieSession crates where
  isCn := isCn
  jar := files.cookies.jar crates now
  sessionData := files.session.load
  files := { files with cookies := if files.cookies = .corrupt then .absent else files.cookies }

/-- `HEADER_DATA`. -/
def headerData : List (String × String) :=
  [("X-Apple-ID-Account-Country", "account_country"),
    ("X-Apple-ID-Session-Id", "session_id"),
    ("X-Apple-Session-Token", "session_token"),
    ("X-Apple-TwoSV-Trust-Token", "trust_token"),
    ("X-Apple-TwoSV-Trust-Eligible", "trust_eligible"),
    ("X-Apple-I-Rscd", "apple_rscd"),
    ("X-Apple-I-Ercd", "apple_ercd"),
    ("scnt", "scnt")]

/-- `HeaderValue::to_str` accepts the value. -/
def isVisibleAscii (value : String) : Bool :=
  value.toList.all (fun c => (32 ≤ c.toNat && c.toNat < 127) || c = '\t')

/-- A response that a session handles, and what fails meanwhile. -/
structure Response where
  now : Int
  /-- The texts that set cookies, of the response and of the redirects before it. -/
  setCookies : List (Url × String)
  /-- The values that are texts. -/
  headers : String → Option String
  sessionWriteFails : Bool
  cookieReadFails : Bool
  cookieWriteFails : Bool

/-- The session data after a header, and whether they changed. -/
def storeHeader (headers : String → Option String) (s : SessionData × Bool)
    (item : String × String) : SessionData × Bool :=
  match headers item.1 with
  | none => s
  | some value =>
      if isVisibleAscii value && s.1 item.2 ≠ some value then
        (Function.update s.1 item.2 (some value), true)
      else s

def storeHeaders (headers : String → Option String) (data : SessionData) : SessionData × Bool :=
  headerData.foldl (storeHeader headers) (data, false)

namespace CookieSession

variable (s : CookieSession crates) (r : Response)

/-- The client puts the cookies of a response into the jar. -/
def receive : CookieSession crates :=
  { s with jar := r.setCookies.foldl (fun jar c => jar.addCookieStr r.now c.1 c.2) s.jar }

/-- The cookies to keep. -/
def entries (now : Int) : List CookieEntry :=
  (appleHosts s.isCn).flatMap (fun host =>
    match crates.parseUrl (appleUrl host) with
    | none => []
    | some url =>
        match s.jar.header now url with
        | none => []
        | some value =>
            if isVisibleAscii value then
              (((splitPairs value.toList).map String.ofList).filter (· ≠ "")).map
                (fun pair => ⟨appleUrl host, pair⟩)
            else [])

/-- `persist_jar_cookies`; `false` for an error. -/
def persistJarCookies : Bool × CookieSession crates :=
  if (s.entries r.now).isEmpty then (true, s)
  else if !r.cookieReadFails && s.files.cookies = .entries (s.entries r.now) then (true, s)
  else if r.cookieWriteFails then (false, s)
  else (true, { s with files := { s.files with cookies := .entries (s.entries r.now) } })

/-- `extract_and_save`. -/
def extractAndSave : Bool × CookieSession crates :=
  let (data, changed) := storeHeaders r.headers s.sessionData
  let s := { s with sessionData := data }
  if changed then
    if r.sessionWriteFails then (false, s)
    else
      persistJarCookies { s with files := { s.files with
        session := .map (fun key => (data key).map .string) } } r
  else s.persistJarCookies r

def handle : Bool × CookieSession crates := (s.receive r).extractAndSave r

end CookieSession

/-! ## splitting what is sent -/

theorem splitPairs_of_not_mem {word : List Char} (h : ';' ∉ word) : splitPairs word = [word] := by
  induction word with
  | nil => rfl
  | cons c cs ih =>
      have hc : c ≠ ';' := fun hc => h (hc ▸ List.mem_cons_self)
      rw [splitPairs, ih (fun hmem => h (List.mem_cons_of_mem _ hmem))]
      exact fun _ hcs => absurd hcs hc

theorem splitPairs_append {word : List Char} (h : ';' ∉ word) (rest : List Char) :
    splitPairs (word ++ ';' :: ' ' :: rest) = word :: splitPairs rest := by
  induction word with
  | nil => rfl
  | cons c cs ih =>
      have hc : c ≠ ';' := fun hc => h (hc ▸ List.mem_cons_self)
      rw [List.cons_append, splitPairs, ih (fun hmem => h (List.mem_cons_of_mem _ hmem))]
      exact fun _ hcs => absurd hcs hc

theorem toList_intercalate_cons (word : String) {words : List String} (h : words ≠ []) :
    ("; ".intercalate (word :: words)).toList =
      word.toList ++ ';' :: ' ' :: ("; ".intercalate words).toList := by
  obtain ⟨next, words, rfl⟩ := List.exists_cons_of_ne_nil h
  rw [String.intercalate_cons_cons, String.toList_append, String.toList_append, List.append_assoc]
  rfl

theorem splitPairs_intercalate {words : List String} (hne : words ≠ [])
    (h : ∀ word ∈ words, ';' ∉ word.toList) :
    (splitPairs ("; ".intercalate words).toList).map String.ofList = words := by
  induction words with
  | nil => exact absurd rfl hne
  | cons word words ih =>
      have hword := h word List.mem_cons_self
      by_cases hnil : words = []
      · rw [hnil, String.intercalate_singleton, splitPairs_of_not_mem hword]
        simp
      · rw [toList_intercalate_cons word hnil, splitPairs_append hword, List.map_cons,
          ih hnil (fun w hw => h w (List.mem_cons_of_mem _ hw)), String.ofList_toList]

/-- What holds of `;` and of a space holds of the whole if it holds of the words. -/
theorem forall_mem_intercalate {P : Char → Prop} (hsemicolon : P ';') (hspace : P ' ')
    (words : List String) :
    (∀ c ∈ ("; ".intercalate words).toList, P c) ↔ ∀ word ∈ words, ∀ c ∈ word.toList, P c := by
  induction words with
  | nil => simp
  | cons word words ih =>
      by_cases hnil : words = []
      · simp [hnil]
      · rw [toList_intercalate_cons word hnil, List.forall_mem_append, List.forall_mem_cons,
          List.forall_mem_cons, ih, List.forall_mem_cons]
        simp [hsemicolon, hspace]

/-! ## what a jar sends -/

/-- The text as which a cookie is sent. -/
def CookieCrates.IsPair (crates : CookieCrates) (text : String) (p : SetCookie) : Prop :=
  ∃ source, crates.parse source = some p ∧ text = pairText p.name p.value

variable {p : SetCookie}

theorem CookieCrates.IsPair.not_mem {text : String} (h : crates.IsPair text p) :
    ';' ∉ text.toList := by
  obtain ⟨source, hparse, rfl⟩ := h
  exact (crates.parse_pair source p hparse).1

theorem CookieCrates.IsPair.parse_eq {text : String} (h : crates.IsPair text p) :
    crates.parse text = some (.plain p.name p.value none) := by
  obtain ⟨source, hparse, rfl⟩ := h
  exact (crates.parse_pair source p hparse).2.1

/-- The name of a pair. -/
def CookieCrates.nameOf (crates : CookieCrates) (text : String) : Option String :=
  (crates.parse text).map (·.name)

theorem CookieCrates.IsPair.nameOf_eq {text : String} (h : crates.IsPair text p) :
    crates.nameOf text = some p.name := by
  rw [CookieCrates.nameOf, h.parse_eq]
  rfl

namespace Jar

variable {jar : Jar crates} {now : Int} {url : Url} {text : String}

theorem mem_pairs : text ∈ jar.pairs now url ↔
    ∃ c ∈ jar.cookies, c.isSentTo now url = true ∧ text = pairText c.name c.value := by
  simp only [pairs, List.mem_map, (crates.arrange_perm _).mem_iff, List.mem_filter]
  exact ⟨fun ⟨c, ⟨hc, hsent⟩, htext⟩ => ⟨c, hc, hsent, htext.symm⟩,
    fun ⟨c, hc, hsent, htext⟩ => ⟨c, ⟨hc, hsent⟩, htext.symm⟩⟩

theorem isPair_of_mem {c : Cookie} (h : c ∈ jar.cookies) :
    ∃ p, crates.IsPair (pairText c.name c.value) p ∧ p.name = c.name ∧ p.value = c.value := by
  obtain ⟨source, p, hparse, hname, hvalue⟩ := jar.parsed c h
  exact ⟨p, ⟨source, hparse, by rw [hname, hvalue]⟩, hname, hvalue⟩

theorem isPair_of_mem_pairs (h : text ∈ jar.pairs now url) : ∃ p, crates.IsPair text p := by
  obtain ⟨c, hc, -, rfl⟩ := mem_pairs.mp h
  obtain ⟨p, hp, -⟩ := isPair_of_mem hc
  exact ⟨p, hp⟩

theorem pairText_ne (name value : String) : pairText name value ≠ "" := by
  intro h
  have hlist := congrArg String.toList h
  simp [pairText] at hlist

/-- No character that a header may not have. -/
def Allowed (jar : Jar crates) (now : Int) (url : Url) : Prop :=
  ∀ text ∈ jar.pairs now url, ∀ c ∈ text.toList, isControl c = false

theorem intercalate_pairs : "; ".intercalate (jar.pairs now url) = "" ↔
    jar.pairs now url = [] := by
  refine ⟨fun h => ?_, fun h => by rw [h]; rfl⟩
  by_contra hne
  have hsplit := splitPairs_intercalate hne fun t ht =>
    (isPair_of_mem_pairs ht).elim fun _ hp => hp.not_mem
  rw [h] at hsplit
  have hmem : "" ∈ jar.pairs now url := by
    rw [← hsplit]
    exact List.mem_singleton_self _
  obtain ⟨c, -, -, htext⟩ := mem_pairs.mp hmem
  exact pairText_ne _ _ htext.symm

theorem header_eq_some {value : String} : jar.header now url = some value ↔
    (jar.pairs now url ≠ [] ∧ jar.Allowed now url) ∧
      "; ".intercalate (jar.pairs now url) = value := by
  have hcontrol := forall_mem_intercalate (P := fun c => isControl c = false) (by decide)
    (by decide) (jar.pairs now url)
  rw [header, Option.ite_none_left_eq_some, Option.some.injEq]
  simp only [Bool.or_eq_true, decide_eq_true_eq, intercalate_pairs, not_or, Bool.not_eq_true,
    List.any_eq_false, hcontrol, Allowed, ne_eq]

theorem split_header {value : String} (h : jar.header now url = some value) :
    (splitPairs value.toList).map String.ofList = jar.pairs now url := by
  obtain ⟨⟨hne, -⟩, rfl⟩ := header_eq_some.mp h
  exact splitPairs_intercalate hne fun t ht =>
    (isPair_of_mem_pairs ht).elim fun _ hp => hp.not_mem

/-- What is sent: the pairs, unless a character in one of them is not allowed. -/
theorem mem_sends : text ∈ jar.sends now url ↔
    text ∈ jar.pairs now url ∧ jar.Allowed now url := by
  rw [sends]
  rcases h : jar.header now url with _ | value
  · refine ⟨fun h => absurd h List.not_mem_nil, fun ⟨hmem, hallowed⟩ => ?_⟩
    rw [header_eq_some.mpr ⟨⟨List.ne_nil_of_mem hmem, hallowed⟩, rfl⟩] at h
    contradiction
  · simp only [split_header h]
    exact ⟨fun hmem => ⟨hmem, (header_eq_some.mp h).1.2⟩, And.left⟩

theorem isPair_of_mem_sends (h : text ∈ jar.sends now url) : ∃ p, crates.IsPair text p :=
  isPair_of_mem_pairs (mem_sends.mp h).1

end Jar

/-! ## the entries -/

/-- What is kept of a host: what is sent to it, when all of that is visible ASCII. -/
theorem CookieSession.mem_entries {s : CookieSession crates} {now : Int} {entry : CookieEntry} :
    entry ∈ s.entries now ↔ ∃ host ∈ appleHosts s.isCn, entry.url = appleUrl host ∧
      entry.cookie ∈ s.jar.sends now ⟨host, "/"⟩ ∧
        ∀ text ∈ s.jar.sends now ⟨host, "/"⟩, isVisibleAscii text = true := by
  rw [entries, List.mem_flatMap]
  refine exists_congr fun host => and_congr_right fun hhost => ?_
  simp only [crates.parseUrl_apple _ _ hhost]
  rcases h : s.jar.header now ⟨host, "/"⟩ with _ | value
  · have hnone : s.jar.sends now ⟨host, "/"⟩ = [] := by rw [Jar.sends, h]
    simp [hnone]
  · have hsends : s.jar.sends now ⟨host, "/"⟩ = s.jar.pairs now ⟨host, "/"⟩ := by
      rw [Jar.sends, h]
      exact Jar.split_header h
    have hvisible : isVisibleAscii value = true ↔
        ∀ text ∈ s.jar.pairs now ⟨host, "/"⟩, isVisibleAscii text = true := by
      rw [← (Jar.header_eq_some.mp h).2]
      simp only [isVisibleAscii, List.all_eq_true]
      exact forall_mem_intercalate (by decide) (by decide) _
    rw [hsends, ← hvisible]
    by_cases hall : isVisibleAscii value = true
    · simp only [hall, if_true, Jar.split_header h, List.mem_map, List.mem_filter, and_true,
        decide_eq_true_eq]
      constructor
      · rintro ⟨text, ⟨hmem, -⟩, rfl⟩
        exact ⟨rfl, hmem⟩
      · rintro ⟨hurl, hmem⟩
        obtain ⟨c, -, -, htext⟩ := Jar.mem_pairs.mp hmem
        refine ⟨entry.cookie, ⟨hmem, ?_⟩, by rw [← hurl]⟩
        rw [htext]
        exact Jar.pairText_ne _ _
    · simp [hall]

/-! ## a jar made of the entries -/

/-- The domain that the hosts of a site share. -/
def siteOf (host : String) : String := (broadCookieDomain host).getD host

theorem siteOf_apple {isCn : Bool} {host : String} (h : host ∈ appleHosts isCn) :
    broadCookieDomain host = some (siteOf host) ∧ siteOf host ∈ broadDomains ∧
      domainMatch host (siteOf host) = true := by
  have hall : ∀ isCn, ∀ host ∈ appleHosts isCn, broadCookieDomain host = some (siteOf host) ∧
      siteOf host ∈ broadDomains ∧ domainMatch host (siteOf host) = true := by decide +kernel
  exact hall isCn host h

theorem domainMatch_siteOf {isCn : Bool} {host host' : String} (h : host ∈ appleHosts isCn)
    (h' : host' ∈ appleHosts isCn) :
    domainMatch host (siteOf host') = true ↔ siteOf host = siteOf host' := by
  have hall : ∀ isCn, ∀ host ∈ appleHosts isCn, ∀ host' ∈ appleHosts isCn,
      (domainMatch host (siteOf host') = true ↔ siteOf host = siteOf host') := by decide +kernel
  exact hall isCn host h host' h'

/-- The cookie that an entry of a host makes. -/
def restored (host : String) (p : SetCookie) : Cookie where
  domain := siteOf host
  path := "/"
  name := p.name
  value := p.value
  hostOnly := false
  expires := none

/-- The entry is a pair kept of a host, and makes the cookie. -/
def Makes (crates : CookieCrates) (isCn : Bool) (entry : CookieEntry) (c : Cookie) : Prop :=
  ∃ host ∈ appleHosts isCn, ∃ p, entry.url = appleUrl host ∧ crates.IsPair entry.cookie p ∧
    c = restored host p

theorem appleUrl_inj (crates : CookieCrates) {isCn : Bool} {host host' : String}
    (h : host ∈ appleHosts isCn) (h' : host' ∈ appleHosts isCn)
    (heq : appleUrl host = appleUrl host') : host = host' := by
  have hurl := crates.parseUrl_apple isCn host h
  rw [heq, crates.parseUrl_apple isCn host' h'] at hurl
  exact (congrArg Url.host (Option.some.inj hurl)).symm

theorem Makes.eq {isCn : Bool} {entry : CookieEntry} {c c' : Cookie}
    (h : Makes crates isCn entry c) (h' : Makes crates isCn entry c') : c = c' := by
  obtain ⟨host, hhost, p, hurl, hpair, rfl⟩ := h
  obtain ⟨host', hhost', p', hurl', hpair', rfl⟩ := h'
  obtain rfl := appleUrl_inj crates hhost hhost' (hurl.symm.trans hurl')
  have hplain := Option.some.inj (hpair.parse_eq.symm.trans hpair'.parse_eq)
  have hname : p.name = p'.name := (SetCookie.mk.inj hplain).1
  have hvalue : p.value = p'.value := (SetCookie.mk.inj hplain).2.1
  rw [restored, restored, hname, hvalue]

namespace Jar

variable {isCn : Bool} {now : Int} {entry : CookieEntry} {c : Cookie}

theorem addCookieStr_cookies (jar : Jar crates) {url : Url} {text : String} {p : SetCookie}
    (h : crates.parse text = some p) (hdomain : p.domain.all (domainMatch url.host) = true) :
    jar.addCookieStr now url text = jar.put now (cookieOf now url p) ⟨text, p, h, rfl, rfl⟩ := by
  unfold addCookieStr
  split
  · next hnone =>
      rw [h] at hnone
      contradiction
  · next p' h' =>
      obtain rfl := Option.some.inj (h.symm.trans h')
      rw [if_pos hdomain]

theorem defaultPath_root : defaultPath "/" = "/" := by decide +kernel

theorem addEntry_cookies (h : Makes crates isCn entry c) (jar : Jar crates) :
    (jar.addEntry now entry).cookies = jar.cookies.filter (fun c' => c'.key ≠ c.key) ++ [c] := by
  obtain ⟨host, hhost, p, hurl, hpair, rfl⟩ := h
  obtain ⟨hbroad, hdomain, hmatch⟩ := siteOf_apple hhost
  have hexpired : isCookieExpired crates now entry.cookie = false := by
    rw [isCookieExpired, hpair.parse_eq]
    rfl
  obtain ⟨source, hparse, htext⟩ := hpair
  have hagain := (crates.parse_pair source p hparse).2.2 _ hdomain
  rw [addEntry, hexpired, hurl, crates.parseUrl_apple _ _ hhost]
  simp only [Bool.false_eq_true, if_false, hbroad, htext]
  rw [addCookieStr_cookies jar hagain (by simpa [SetCookie.plain] using hmatch)]
  have hcookie : cookieOf now ⟨host, "/"⟩ (.plain p.name p.value (some (siteOf host))) =
      restored host p := by
    simp [cookieOf, restored, SetCookie.plain, defaultPath_root]
  simp only [put, hcookie]
  rfl

theorem eq_of_key {jar : Jar crates} {c c' : Cookie} (h : c ∈ jar.cookies)
    (h' : c' ∈ jar.cookies) (hkey : c.key = c'.key) : c = c' := by
  by_contra hne
  have : Std.Symm (fun c c' : Cookie => c.key ≠ c'.key) := ⟨fun _ _ => Ne.symm⟩
  exact jar.keyed.forall h h' hne hkey

variable {entries : List CookieEntry}

theorem exists_makes (hmakes : ∀ entry ∈ entries, ∃ c, Makes crates isCn entry c)
    (h : c ∈ (load now entries : Jar crates).cookies) :
    ∃ entry ∈ entries, Makes crates isCn entry c := by
  induction entries using List.reverseRecOn with
  | nil => exact absurd h List.not_mem_nil
  | append_singleton entries last ih =>
      obtain ⟨c', hlast⟩ := hmakes last (by simp)
      rw [load, List.foldl_append, List.foldl_cons, List.foldl_nil, addEntry_cookies hlast] at h
      rcases List.mem_append.mp h with hold | hnew
      · obtain ⟨entry, hmem, hentry⟩ := ih
          (fun entry hmem => hmakes entry (List.mem_append_left _ hmem)) (List.mem_filter.mp hold).1
        exact ⟨entry, List.mem_append_left _ hmem, hentry⟩
      · obtain rfl := List.mem_singleton.mp hnew
        exact ⟨last, by simp, hlast⟩

theorem mem_load (hmakes : ∀ entry ∈ entries, ∃ c, Makes crates isCn entry c)
    (hentry : entry ∈ entries) (h : Makes crates isCn entry c)
    (hone : ∀ entry' ∈ entries, ∀ c', Makes crates isCn entry' c' → c'.key = c.key → c' = c) :
    c ∈ (load now entries : Jar crates).cookies := by
  induction entries using List.reverseRecOn with
  | nil => exact absurd hentry List.not_mem_nil
  | append_singleton entries last ih =>
      obtain ⟨c', hlast⟩ := hmakes last (by simp)
      rw [load, List.foldl_append, List.foldl_cons, List.foldl_nil, addEntry_cookies hlast]
      by_cases hkey : c'.key = c.key
      · obtain rfl := hone last (by simp) c' hlast hkey
        exact List.mem_append_right _ (List.mem_singleton_self _)
      · refine List.mem_append_left _ (List.mem_filter.mpr ⟨?_, by simpa using Ne.symm hkey⟩)
        rcases List.mem_append.mp hentry with hmem | hmem
        · exact ih (fun entry' h' => hmakes entry' (List.mem_append_left _ h')) hmem
            (fun entry' h' => hone entry' (List.mem_append_left _ h'))
        · obtain rfl := List.mem_singleton.mp hmem
          exact absurd (congrArg Cookie.key (hlast.eq h)) hkey

theorem isSentTo_restored {host host' : String} (h : host ∈ appleHosts isCn)
    (h' : host' ∈ appleHosts isCn) (p : SetCookie) :
    (restored host' p).isSentTo now ⟨host, "/"⟩ = true ↔ siteOf host = siteOf host' := by
  rw [← domainMatch_siteOf h h']
  simp [Cookie.isSentTo, restored, Cookie.isExpired, pathMatch]

/-- What a jar made of visible entries sends: the cookies of the site. -/
theorem mem_sends_load {host text : String}
    (hmakes : ∀ entry ∈ entries, ∃ c, Makes crates isCn entry c)
    (hvisible : ∀ entry ∈ entries, isVisibleAscii entry.cookie = true)
    (hhost : host ∈ appleHosts isCn) :
    text ∈ (load now entries : Jar crates).sends now ⟨host, "/"⟩ ↔
      ∃ c ∈ (load now entries : Jar crates).cookies,
        c.domain = siteOf host ∧ text = pairText c.name c.value := by
  have hsent {c : Cookie} (hc : c ∈ (load now entries : Jar crates).cookies) :
      (c.isSentTo now ⟨host, "/"⟩ = true ↔ c.domain = siteOf host) ∧
        isVisibleAscii (pairText c.name c.value) = true := by
    obtain ⟨entry, hentry, host', hhost', p, -, ⟨source, -, htext⟩, rfl⟩ := exists_makes hmakes hc
    refine ⟨(isSentTo_restored hhost hhost' p).trans eq_comm, ?_⟩
    have h := hvisible entry hentry
    rwa [htext] at h
  rw [mem_sends, mem_pairs]
  refine ⟨fun h => ?_, fun h => ⟨?_, fun text' htext' c' hc' => ?_⟩⟩
  · obtain ⟨⟨c, hc, hmatch, htext⟩, -⟩ := h
    exact ⟨c, hc, (hsent hc).1.mp hmatch, htext⟩
  · obtain ⟨c, hc, hsite, htext⟩ := h
    exact ⟨c, hc, (hsent hc).1.mpr hsite, htext⟩
  · obtain ⟨c, hc, -, rfl⟩ := mem_pairs.mp htext'
    have hascii := List.all_eq_true.mp (hsent hc).2 c' hc'
    simp only [Bool.or_eq_true, Bool.and_eq_true, decide_eq_true_eq] at hascii
    rw [isControl]
    rcases hascii with hrange | rfl
    · simp
      omega
    · decide

/-- The jars send the same to the hosts. -/
def SendsAlike (isCn : Bool) (now : Int) (jar jar' : Jar crates) : Prop :=
  ∀ host ∈ appleHosts isCn, ∀ text,
    text ∈ jar.sends now ⟨host, "/"⟩ ↔ text ∈ jar'.sends now ⟨host, "/"⟩

/-- What is sent is visible ASCII, is sent to every host of the site, and has one value for a
name. -/
structure Shared (isCn : Bool) (now : Int) (jar : Jar crates) : Prop where
  visible : ∀ host ∈ appleHosts isCn, ∀ text ∈ jar.sends now ⟨host, "/"⟩,
    isVisibleAscii text = true
  same : ∀ host ∈ appleHosts isCn, ∀ host' ∈ appleHosts isCn, siteOf host = siteOf host' →
    ∀ text ∈ jar.sends now ⟨host, "/"⟩, text ∈ jar.sends now ⟨host', "/"⟩
  one : ∀ host ∈ appleHosts isCn, ∀ text ∈ jar.sends now ⟨host, "/"⟩,
    ∀ text' ∈ jar.sends now ⟨host, "/"⟩, crates.nameOf text = crates.nameOf text' → text = text'

end Jar

namespace CookieSession

variable {s : CookieSession crates} {now : Int}

theorem entries_make : ∀ entry ∈ s.entries now, ∃ c, Makes crates s.isCn entry c := by
  intro entry hentry
  obtain ⟨host, hhost, hurl, hsent, -⟩ := mem_entries.mp hentry
  obtain ⟨p, hp⟩ := Jar.isPair_of_mem_sends hsent
  exact ⟨restored host p, host, hhost, p, hurl, hp, rfl⟩

theorem sends_of_entry {entry : CookieEntry} {host : String} (h : entry ∈ s.entries now)
    (hhost : host ∈ appleHosts s.isCn) (hurl : entry.url = appleUrl host) :
    entry.cookie ∈ s.jar.sends now ⟨host, "/"⟩ ∧ isVisibleAscii entry.cookie = true := by
  obtain ⟨host', hhost', hurl', hsent, hall⟩ := mem_entries.mp h
  obtain rfl := appleUrl_inj crates hhost hhost' (hurl.symm.trans hurl')
  exact ⟨hsent, hall _ hsent⟩

theorem sent_load {host text : String} (hhost : host ∈ appleHosts s.isCn) :
    text ∈ (Jar.load now (s.entries now) : Jar crates).sends now ⟨host, "/"⟩ ↔
      ∃ c ∈ (Jar.load now (s.entries now) : Jar crates).cookies,
        c.domain = siteOf host ∧ text = pairText c.name c.value := by
  refine Jar.mem_sends_load entries_make (fun entry h => ?_) hhost
  obtain ⟨_, _, _, hsent, hall⟩ := mem_entries.mp h
  exact hall _ hsent

theorem kept_of_load {c : Cookie}
    (h : c ∈ (Jar.load now (s.entries now) : Jar crates).cookies) :
    ∃ host ∈ appleHosts s.isCn, ∃ p, c = restored host p ∧
      crates.IsPair (pairText c.name c.value) p ∧
      pairText c.name c.value ∈ s.jar.sends now ⟨host, "/"⟩ ∧
        isVisibleAscii (pairText c.name c.value) = true := by
  obtain ⟨entry, hentry, host, hhost, p, hurl, hpair, rfl⟩ := Jar.exists_makes entries_make h
  obtain ⟨hsent, hvisible⟩ := sends_of_entry hentry hhost hurl
  obtain ⟨source, hparse, htext⟩ := hpair
  have hentry : entry.cookie = pairText (restored host p).name (restored host p).value := htext
  rw [← hentry]
  exact ⟨host, hhost, p, rfl, ⟨source, hparse, htext⟩, hsent, hvisible⟩

/-- **What the entries bring back**: the cookies of a jar in which the hosts of a site share
them. -/
theorem load_entries_iff :
    (Jar.load now (s.entries now)).SendsAlike s.isCn now s.jar ↔ s.jar.Shared s.isCn now := by
  constructor
  · intro halike
    refine ⟨fun host hhost text htext => ?_, fun host hhost host' hhost' hsite text htext => ?_,
      fun host hhost text htext text' htext' hname => ?_⟩
    · obtain ⟨c, hc, -, rfl⟩ := (sent_load hhost).mp ((halike host hhost text).mpr htext)
      obtain ⟨_, _, _, _, _, _, hvisible⟩ := kept_of_load hc
      exact hvisible
    · obtain ⟨c, hc, hdomain, htext⟩ := (sent_load hhost).mp ((halike host hhost text).mpr htext)
      exact (halike host' hhost' text).mp
        ((sent_load hhost').mpr ⟨c, hc, hdomain.trans hsite, htext⟩)
    · obtain ⟨c, hc, hdomain, rfl⟩ := (sent_load hhost).mp ((halike host hhost text).mpr htext)
      obtain ⟨c', hc', hdomain', rfl⟩ :=
        (sent_load hhost).mp ((halike host hhost text').mpr htext')
      obtain ⟨_, _, p, hmade, hp, _⟩ := kept_of_load hc
      obtain ⟨_, _, p', hmade', hp', _⟩ := kept_of_load hc'
      rw [hp.nameOf_eq, hp'.nameOf_eq] at hname
      have hnames : c.name = c'.name := by
        rw [hmade, hmade']
        exact Option.some.inj hname
      have hpaths : c.path = c'.path := by rw [hmade, hmade']; rfl
      have hkey : c.key = c'.key := by
        rw [Cookie.key, Cookie.key, hdomain, hdomain', hnames, hpaths]
      rw [Jar.eq_of_key hc hc' hkey]
  · intro hshared host hhost text
    constructor
    · intro htext
      obtain ⟨c, hc, hdomain, rfl⟩ := (sent_load hhost).mp htext
      obtain ⟨host', hhost', p, hmade, -, hsent, -⟩ := kept_of_load hc
      have hsite : siteOf host' = siteOf host := by rw [← hdomain, hmade]; rfl
      exact hshared.same host' hhost' host hhost hsite _ hsent
    · intro htext
      obtain ⟨p, hpair⟩ := Jar.isPair_of_mem_sends htext
      have hentry : ⟨appleUrl host, text⟩ ∈ s.entries now :=
        mem_entries.mpr ⟨host, hhost, rfl, htext, hshared.visible host hhost⟩
      have hmakes : Makes crates s.isCn ⟨appleUrl host, text⟩ (restored host p) :=
        ⟨host, hhost, p, rfl, hpair, rfl⟩
      refine (sent_load hhost).mpr ⟨restored host p, Jar.mem_load entries_make hentry hmakes ?_,
        rfl, hpair.choose_spec.2⟩
      rintro entry' hentry' c' ⟨host', hhost', p', hurl', hpair', rfl⟩ hkey
      obtain ⟨hsent, -⟩ := sends_of_entry hentry' hhost' hurl'
      simp only [Cookie.key, restored, Prod.mk.injEq, true_and] at hkey
      have htexts : entry'.cookie = text := by
        refine hshared.one host hhost _ (hshared.same host' hhost' host hhost hkey.1 _ hsent) _
          htext ?_
        rw [hpair'.nameOf_eq, hpair.nameOf_eq, hkey.2]
      rw [htexts] at hpair'
      have hvalue := (SetCookie.mk.inj
        (Option.some.inj (hpair'.parse_eq.symm.trans hpair.parse_eq))).2.1
      rw [restored, restored, hkey.1, hkey.2, hvalue]

/-! ## a session and the one that replaces it -/

/-- The session that is built from the files has the session data, and sends the same cookies. -/
def IsRebuilt (s : CookieSession crates) (now : Int) : Prop :=
  (build crates s.isCn now s.files).sessionData = s.sessionData ∧
    (build crates s.isCn now s.files).jar.SendsAlike s.isCn now s.jar

/-- Before the saving: changed session data can be written; all that the jar sends is visible
ASCII, shared by the hosts of a site, and has one value for a name; and when there is nothing to
keep, no cookie is read in the file that stays. -/
structure Saves (s : CookieSession crates) (r : Response) : Prop where
  session : (storeHeaders r.headers s.sessionData).2 = true → r.sessionWriteFails = false
  shared : s.jar.Shared s.isCn r.now
  emptied : s.entries r.now = [] → (s.files.cookies.jar crates r.now).cookies = []

theorem storeHeaders_unchanged {headers : String → Option String} {data : SessionData}
    (h : (storeHeaders headers data).2 = false) : (storeHeaders headers data).1 = data := by
  have hfold (items : List (String × String)) (start : SessionData × Bool) :
      (items.foldl (storeHeader headers) start).2 = false →
        start.2 = false ∧ (items.foldl (storeHeader headers) start).1 = start.1 := by
    induction items generalizing start with
    | nil => exact fun h => ⟨h, rfl⟩
    | cons item items ih =>
        intro hend
        obtain ⟨hflag, hdata⟩ := ih _ hend
        rw [List.foldl_cons, hdata]
        unfold storeHeader at hflag ⊢
        rcases hvalue : headers item.1 with _ | value
        · rw [hvalue] at hflag
          exact ⟨hflag, rfl⟩
        · simp only [hvalue] at hflag ⊢
          split at hflag
          · contradiction
          · next hnot => exact ⟨hflag, by rw [if_neg hnot]⟩
  exact (hfold headerData (data, false) h).2

theorem persist_ok {r : Response} (h : (s.persistJarCookies r).1 = true) :
    (s.persistJarCookies r).2 = { s with files :=
      ⟨if s.entries r.now = [] then s.files.cookies else .entries (s.entries r.now),
        s.files.session⟩ } := by
  unfold persistJarCookies at h ⊢
  by_cases hnil : s.entries r.now = []
  · simp [hnil]
  · have hnot : (s.entries r.now).isEmpty = false := by simpa using hnil
    simp only [hnot, Bool.false_eq_true, if_false, hnil] at h ⊢
    split
    · next hsame =>
        simp only [Bool.and_eq_true, decide_eq_true_eq] at hsame
        rw [← hsame.2]
    · next hdiffers =>
        rw [if_neg hdiffers] at h
        split
        · next hfails =>
            rw [if_pos hfails] at h
            contradiction
        · rfl

/-- A jar without a cookie sends what one sends of which nothing is kept. -/
theorem sendsAlike_of_emptied {jar : Jar crates} (hshared : s.jar.Shared s.isCn now)
    (hnil : s.entries now = []) (hjar : jar.cookies = []) : jar.SendsAlike s.isCn now s.jar := by
  refine fun host hhost text => iff_of_false (fun htext => ?_) (fun htext => ?_)
  · obtain ⟨c, hc, -⟩ := Jar.mem_pairs.mp (Jar.mem_sends.mp htext).1
    rw [hjar] at hc
    cases hc
  · have hentry : ⟨appleUrl host, text⟩ ∈ s.entries now :=
      mem_entries.mpr ⟨host, hhost, rfl, htext, hshared.visible host hhost⟩
    rw [hnil] at hentry
    cases hentry

/-- Once the file has the session data, it keeps up with them while its writes work. -/
theorem handle_session {r : Response} (h : s.files.session.load = s.sessionData)
    (hworks : (storeHeaders r.headers s.sessionData).2 = true → r.sessionWriteFails = false) :
    (s.handle r).2.files.session.load = (s.handle r).2.sessionData := by
  have hpersist (s : CookieSession crates) :
      (s.persistJarCookies r).2.files.session = s.files.session ∧
        (s.persistJarCookies r).2.sessionData = s.sessionData := by
    unfold persistJarCookies
    split
    · exact ⟨rfl, rfl⟩
    · split
      · exact ⟨rfl, rfl⟩
      · split
        · exact ⟨rfl, rfl⟩
        · exact ⟨rfl, rfl⟩
  unfold handle extractAndSave
  cases hchanged : (storeHeaders r.headers (s.receive r).sessionData).2 with
  | true =>
      simp only [hchanged, if_true, hworks hchanged, Bool.false_eq_true, if_false]
      rw [(hpersist _).1, (hpersist _).2]
      funext key
      simp [SessionFile.load, Function.comp_def, SessionValue.text]
  | false =>
      simp only [hchanged, Bool.false_eq_true, if_false, storeHeaders_unchanged hchanged]
      rw [(hpersist _).1, (hpersist _).2]
      exact h

/-- A saving that works and finds what it can keep leaves what can be rebuilt. -/
theorem handle_rebuilt {r : Response} (hfile : s.files.session.load = s.sessionData)
    (hsaves : (s.receive r).Saves r) (hok : (s.handle r).1 = true) :
    (s.handle r).2.IsRebuilt r.now := by
  have hsession := handle_session hfile hsaves.session
  refine ⟨hsession, ?_⟩
  unfold handle extractAndSave at hok ⊢
  have hcookies (s' : CookieSession crates) (hjar : s'.jar = (s.receive r).jar)
      (hcn : s'.isCn = (s.receive r).isCn) (hkept : s'.files.cookies = (s.receive r).files.cookies)
      (hsaved : (s'.persistJarCookies r).1 = true) :
      (build crates (s'.persistJarCookies r).2.isCn r.now (s'.persistJarCookies r).2.files
        ).jar.SendsAlike (s'.persistJarCookies r).2.isCn r.now (s'.persistJarCookies r).2.jar := by
    have hshared : s'.jar.Shared s'.isCn r.now := by
      rw [hjar, hcn]
      exact hsaves.shared
    rw [persist_ok hsaved]
    by_cases hnil : s'.entries r.now = []
    · simp only [hnil, if_true]
      refine sendsAlike_of_emptied hshared hnil ?_
      have hentries : (s.receive r).entries r.now = [] := by
        rw [← hnil, entries, entries, hjar, hcn]
      rw [build, hkept]
      exact hsaves.emptied hentries
    · simp only [hnil, if_false]
      exact load_entries_iff.mpr hshared
  cases hchanged : (storeHeaders r.headers (s.receive r).sessionData).2 with
  | true =>
      simp only [hchanged, if_true, hsaves.session hchanged, Bool.false_eq_true, if_false]
        at hok ⊢
      exact hcookies _ rfl rfl rfl hok
  | false =>
      simp only [hchanged, Bool.false_eq_true, if_false] at hok ⊢
      exact hcookies _ rfl rfl rfl hok

/-! ## runs -/

/-- The session when it has handled the responses. -/
def after (s : CookieSession crates) (responses : List Response) : CookieSession crates :=
  responses.foldl (fun s r => (s.handle r).2) s

/-- As long as no write of the session data fails, the file has them. -/
theorem session_after (h : s.files.session.load = s.sessionData) {responses : List Response}
    (hworks : ∀ r ∈ responses, r.sessionWriteFails = false) :
    (s.after responses).files.session.load = (s.after responses).sessionData := by
  induction responses generalizing s with
  | nil => exact h
  | cons r responses ih =>
      exact ih (handle_session h (fun _ => hworks r List.mem_cons_self))
        (fun r' hr' => hworks r' (List.mem_cons_of_mem _ hr'))

end CookieSession

/-! ## a cookie that expires -/

/-- The texts of one cookie, with what they say. -/
def tokenTexts : List (String × SetCookie) :=
  [("t=1; Max-Age=60; Domain=icloud.com", ⟨"t", "1", some "icloud.com", none, none, some 60⟩),
    ("t=1", .plain "t" "1" none)] ++
    broadDomains.map (fun domain => ("t=1; Domain=" ++ domain, .plain "t" "1" (some domain)))

def tokenParse (text : String) : Option SetCookie :=
  (tokenTexts.find? (fun item => item.1 = text)).map (·.2)

def tokenCrates : CookieCrates where
  arrange cookies := cookies
  arrange_perm := List.Perm.refl
  parseUrl text := ((appleHosts true ++ appleHosts false).find? (fun host =>
    appleUrl host = text)).map (fun host => ⟨host, "/"⟩)
  parseUrl_apple := by decide +kernel
  parse := tokenParse
  parse_pair := by
    have hall : ∀ item ∈ tokenTexts, ';' ∉ (pairText item.2.name item.2.value).toList ∧
        tokenParse (pairText item.2.name item.2.value) =
          some (.plain item.2.name item.2.value none) ∧
        ∀ domain ∈ broadDomains,
          tokenParse (pairText item.2.name item.2.value ++ "; Domain=" ++ domain) =
            some (.plain item.2.name item.2.value (some domain)) := by decide +kernel
    intro text c h
    obtain ⟨item, hitem, rfl⟩ := Option.map_eq_some_iff.mp h
    exact hall item (List.mem_of_find?_eq_some hitem)

def quiet (now : Int) (setCookies : List (Url × String)) : Response where
  now := now
  setCookies := setCookies
  headers _ := none
  sessionWriteFails := false
  cookieReadFails := false
  cookieWriteFails := false

/-- A session with one cookie, which lasts a minute. -/
def tokenSession : CookieSession tokenCrates :=
  (CookieSession.build tokenCrates false 0 ⟨.absent, .unusable⟩).after
    [quiet 0 [(⟨"setup.icloud.com", "/"⟩, "t=1; Max-Age=60; Domain=icloud.com")]]

/-- A response with a session token and a cookie that lasts. -/
def signedIn : Response :=
  { quiet 0 [(⟨"setup.icloud.com", "/"⟩, "t=1; Domain=icloud.com")] with
    headers := fun name => if name = "X-Apple-Session-Token" then some "abc" else none }

end Kei.Auth
