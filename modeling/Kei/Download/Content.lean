import Kei.Download.Paths

/-!
# Kei.Download.Content

What a download is checked for: the path of its temporary file, the content
type and the range of the response, and the first bytes of the body.
-/

namespace Kei.Download

open Str

/-! ## errors -/

inductive DownloadError where
  | httpStatus (status : Nat)
  | contentLengthMismatch (expected received : Nat)
  | disk
  | http (status : Nat) (contentLength : Option Nat) (bytesWritten : Nat)
  | invalidContent (reason : String)
  | interrupted (bytesWritten : Nat)
  | other (message : String)
  deriving DecidableEq

namespace DownloadError

def isRetryable : DownloadError → Bool
  | .httpStatus status => status = 429 || 500 ≤ status
  | .contentLengthMismatch _ _ | .invalidContent _ | .http _ _ _ => true
  | .disk | .interrupted _ | .other _ => false

def isInterrupted : DownloadError → Bool
  | .interrupted _ => true
  | _ => false

end DownloadError

/-! ## the temporary path -/

abbrev Content := List UInt8

/-- The libraries that landing a file calls. -/
structure LandHost where
  /-- In hex. -/
  sha256 : Content → String
  sha256_inj : ∀ c c', sha256 c = sha256 c' → c = c'
  base64Decode : String → Option Content
  base32 : Content → String
  /-- By the head of the file when it can be read, else by its extension. -/
  isEmbedWritablePath : Path → Option Content → Bool
  /-- What the metadata writer makes of a file; it may do so in several ways, or fail. -/
  embed : Nat → Content → Option Content

/-- The directory of a path, as a path. -/
def parentPath (path : Path) : Path := (((parent path).getD ["."]).foldl join "")

def tempDownloadPath (host : LandHost) (downloadPath : Path) (checksum tempSuffix : String) :
    Except String Path :=
  match host.base64Decode checksum with
  | none => .error "Could not decode the base64 checksum from Apple"
  | some decoded =>
      if decoded.isEmpty then .error "Apple returned an empty checksum."
      else .ok (join (parentPath downloadPath) (host.base32 decoded ++ tempSuffix))

/-! ## the response -/

def rejectingContentTypeReason (contentType : String) : Option String :=
  let essence := asciiLower (trim ((split contentType ';').headD contentType))
  if essence = "text/html" || essence = "application/xhtml+xml" then some "HTML"
  else if essence = "application/json" || essence = "text/json" then some "JSON"
  else if "+json".toList.isSuffixOf essence.toList then some "JSON"
  else none

def parseContentRangeStart (contentRange : String) : Option Nat :=
  match splitWhitespace contentRange with
  | [unit, rangeAndTotal] =>
      if eqIgnoreAsciiCase unit "bytes" then do
        let (range, _) ← splitOnce '/' rangeAndTotal
        let (start, stop) ← splitOnce '-' range
        let start ← parseU64 start
        let stop ← parseU64 stop
        if stop < start then none else some start
      else none
  | _ => none

def validateResumeContentRange (contentRange : Option String) (resumeOffset : Nat) :
    Except DownloadError Unit :=
  match contentRange with
  | none =>
      .error (.invalidContent "206 Partial Content response omitted Content-Range for resume")
  | some contentRange =>
      match parseContentRangeStart contentRange with
      | none =>
          .error (.invalidContent ("malformed Content-Range for resume: " ++ contentRange))
      | some start =>
          if start = resumeOffset then .ok ()
          else .error (.invalidContent ("Content-Range start " ++ toString start ++
            " does not match existing .part size " ++ toString resumeOffset))

/-! ## the first bytes -/

/-- `u8::is_ascii_whitespace`. -/
def isAsciiWhitespace (b : UInt8) : Bool :=
  b = 0x20 || b = 0x09 || b = 0x0A || b = 0x0C || b = 0x0D

/-- `u8::to_ascii_lowercase`. -/
def lowerByte (b : UInt8) : UInt8 := if 0x41 ≤ b && b ≤ 0x5A then b + 0x20 else b

/-- The bytes of an ASCII string. -/
def ascii (s : String) : Content := s.toList.map (fun c => UInt8.ofNat c.toNat)

def htmlPrefixes : List Content := [ascii "<!doctype", ascii "<html"]

def jsonPrefixes : List Content :=
  [ascii "\x7b\"error\"", ascii "\x7b\"errors\"", ascii "\x7b\"message\"", ascii "\x7b\"code\""]

def detectErrorSentinel (header : Content) : Option String :=
  let rest := header.dropWhile isAsciiWhitespace
  let trimmed := if rest.isEmpty then header else rest
  if htmlPrefixes.any (fun p => p.isPrefixOf (trimmed.map lowerByte)) then
    some "file starts with HTML markup (likely a CDN error page)"
  else if jsonPrefixes.any (fun p => p.isPrefixOf (trimmed.map lowerByte)) then
    some "file starts with a JSON error envelope (likely a CDN error body)"
  else none

def isMovTopAtom (atom : Content) : Bool :=
  ["ftyp", "wide", "mdat", "moov", "free", "skip", "pnot"].any (fun name => ascii name = atom)

/-- Whether the header has the signature of the extension; `none` when there is no rule. -/
def classifyMagic (ext : String) (header : Content) : Option Bool :=
  if ext = "jpg" || ext = "jpeg" then
    some (header.take 2 = [0xFF, 0xD8])
  else if ext = "png" then
    some (header.take 4 = [0x89, 0x50, 0x4E, 0x47])
  else if ext = "heic" || ext = "heif" || ext = "mp4" || ext = "m4v" then
    some (8 ≤ header.length && (header.drop 4).take 4 = ascii "ftyp")
  else if ext = "mov" then
    some (8 ≤ header.length && isMovTopAtom ((header.drop 4).take 4))
  else if ext = "gif" then
    some (header.take 4 = ascii "GIF8")
  else if ext = "tiff" || ext = "tif" || ext = "dng" then
    some (header.take 4 = [0x49, 0x49, 0x2A, 0x00] || header.take 4 = [0x4D, 0x4D, 0x00, 0x2A])
  else if ext = "webp" then
    some (12 ≤ header.length && header.take 4 = ascii "RIFF" &&
      (header.drop 8).take 4 = ascii "WEBP")
  else none

def classifyKnownMediaMagic (header : Content) : Option String :=
  [("jpg", "JPEG"), ("png", "PNG"), ("gif", "GIF"), ("tiff", "TIFF/DNG"), ("webp", "WebP"),
    ("heic", "ISO-BMFF media"), ("mov", "QuickTime MOV")].findSome? (fun entry =>
      if classifyMagic entry.1 header = some true then some entry.2 else none)

/-- `Path::extension`, or nothing. -/
def extension (path : Path) : String :=
  match (fileName path).bind (rsplitOnce '.') with
  | some (stem, ext) => if stem = "" then "" else ext
  | none => ""

/-- The check of a downloaded file by its first sixteen bytes. -/
def validateDownloadedContent (content : Content) (downloadPath : Path) :
    Except DownloadError Unit :=
  let header := content.take 16
  if header.isEmpty then
    .error (.invalidContent "downloaded file is empty (zero bytes)")
  else
    match detectErrorSentinel header with
    | some reason => .error (.invalidContent reason)
    | none =>
        let ext := asciiLower (extension downloadPath)
        if classifyMagic ext header = some false && (classifyKnownMediaMagic header).isNone then
          .error (.invalidContent ("file header does not match expected ." ++ ext ++
            " media and is not recognized as another supported media type"))
        else .ok ()

/-! ## a host -/

theorem charOfByte_inj {b c : UInt8} (h : Char.ofNat b.toNat = Char.ofNat c.toNat) : b = c := by
  have hb : b.toNat.isValidChar := .inl (by have := b.toNat_lt; omega)
  have hc : c.toNat.isValidChar := .inl (by have := c.toNat_lt; omega)
  unfold Char.ofNat at h
  rw [dif_pos hb, dif_pos hc] at h
  have hval : (Char.ofNatAux b.toNat hb).val.toNat = (Char.ofNatAux c.toNat hc).val.toNat :=
    congrArg (fun x => x.val.toNat) h
  exact UInt8.toNat_inj.mp hval

/-- The bytes as characters. -/
def bytesAsString (content : Content) : String :=
  String.ofList (content.map (fun b => Char.ofNat b.toNat))

theorem bytesAsString_inj (c c' : Content) (h : bytesAsString c = bytesAsString c') : c = c' := by
  have hmap := String.ofList_inj.mp h
  exact (List.map_inj_right (fun _ _ h => charOfByte_inj h)).mp hmap

/-- Checksums that spell the bytes, and no metadata writer. -/
def plainLandHost : LandHost where
  sha256 := bytesAsString
  sha256_inj := bytesAsString_inj
  base64Decode s := some (ascii s)
  base32 := bytesAsString
  isEmbedWritablePath _ _ := false
  embed _ _ := none

end Kei.Download
