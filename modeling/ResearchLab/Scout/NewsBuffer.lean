import Mathlib
import ResearchLab.Foundation.JsonLoads
import ResearchLab.Foundation.Machine
import ResearchLab.Foundation.Sorting
import ResearchLab.Foundation.Table

/-!
# The news buffer

Source items go into the table of raw items, one transaction a batch. An item is looked up by
its document id, and the column of canonical urls is unique. The resolver later gives the rows
of Google wrappers their real urls.
-/
namespace ResearchLab.Scout

open Foundation

/-! ## Urls -/

/-- `str.lower`, `hashlib.sha1(...).hexdigest()`, the checks of `urlsplit` on bracketed hosts and
on the normal form of the host, and the decoder of old Google ids. -/
structure Environment where
  lower : String → String
  sha1 : String → String
  validNetloc : List Char → Bool
  decodeGoogleId : String → Option String

/-- `" ".join(s.split())`. -/
def joinWords (s : String) : String :=
  String.ofList ([' '].intercalate ((s.toList.splitOnP isSpace).filter (· ≠ [])))

structure SplitUrl where
  scheme : String
  netloc : String
  path : String

def isSchemeChar (c : Char) : Bool := c.isAlphanum || c = '+' || c = '-' || c = '.'

/-- The scheme in front of the first colon, and what is behind it. -/
def splitScheme (url : List Char) : List Char × List Char :=
  let front := url.takeWhile (· ≠ ':')
  if front.length < url.length ∧ (front.head?.any Char.isAlpha) ∧ front.all isSchemeChar then
    (front.map Char.toLower, url.drop (front.length + 1))
  else ([], url)

def splitNetloc (url : List Char) : List Char × List Char :=
  if ['/', '/'].isPrefixOf url then
    (url.drop 2).span fun c => c ≠ '/' && c ≠ '?' && c ≠ '#'
  else ([], url)

/-- `urlsplit` without the query and the fragment; `none` where it raises. -/
def urlsplit (env : Environment) (url : String) : Option SplitUrl :=
  let text := (url.toList.dropWhile fun c => decide (c.toNat ≤ 32)).filter fun c =>
    c ≠ '\t' && c ≠ '\r' && c ≠ '\n'
  let scheme := splitScheme text
  let netloc := splitNetloc scheme.2
  if netloc.1.contains '[' ≠ netloc.1.contains ']' ∨ env.validNetloc netloc.1 = false then none
  else some ⟨String.ofList scheme.1, String.ofList netloc.1,
    String.ofList ((netloc.2.takeWhile (· ≠ '#')).takeWhile (· ≠ '?'))⟩

def usesNetloc : List String := ["ftp", "http", "gopher", "nntp", "telnet", "imap", "wais",
  "file", "mms", "https", "shttp", "snews", "prospero", "rtsp", "rtspu", "rsync", "svn", "svn+ssh",
  "sftp", "nfs", "git", "git+ssh", "ws", "wss"]

/-- `urlunsplit((scheme, netloc, path, "", ""))` of Python 3.11: a scheme that uses hosts gets the
two slashes of one also where it has none, so `http:x` and `http:///x` are joined alike. -/
def urlunsplit (scheme netloc path : String) : String :=
  let rest :=
    if netloc ≠ "" ∨ scheme ∈ usesNetloc ∧ ¬ ['/', '/'].isPrefixOf path.toList then
      "//" ++ netloc ++ (if path ≠ "" ∧ path.toList.head? ≠ some '/' then "/" ++ path else path)
    else path
  if scheme ≠ "" then scheme ++ ":" ++ rest else rest

/-- `path.rstrip("/")`. -/
def rstripSlashes (path : String) : String :=
  String.ofList (path.toList.reverse.dropWhile (· = '/')).reverse

def canonicalUrl (env : Environment) (url : String) : String :=
  match urlsplit env (strip url) with
  | none => url
  | some p =>
      let joined := urlunsplit (env.lower p.scheme) (env.lower p.netloc) (rstripSlashes p.path)
      if joined = "" then url else joined

/-- The first nonempty text, `a or b`. -/
def orText (a b : String) : String := if a = "" then b else a

def docIdFor (env : Environment) (url title nowIso : String) : String :=
  String.ofList ((env.sha1 (orText (orText (canonicalUrl env url) title) nowIso)).toList.take 16)

def isInfix (word text : List Char) : Bool := text.tails.any word.isPrefixOf

def isGoogleNewsUrl (env : Environment) (url : String) : Bool :=
  match urlsplit env (strip url) with
  | none => false
  | some p => "news.google.com".toList.isSuffixOf (env.lower p.netloc).toList &&
      isInfix "/articles/".toList p.path.toList

/-- The id behind `/articles/`. -/
def articleId (env : Environment) (url : String) : Option String :=
  if isGoogleNewsUrl env url then
    match urlsplit env url with
    | none => none
    | some p =>
        let mark := "/articles/".toList
        let tail := ((p.path.toList.tails.find? mark.isPrefixOf).getD []).drop mark.length
        let id := strip (String.ofList (tail.takeWhile (· ≠ '/')))
        if id = "" then none else some id
  else none

def decodeGoogleNewsUrl (env : Environment) (url : String) : Option String :=
  (articleId env url).bind env.decodeGoogleId

/-- The best url, and whether it was decoded. -/
def unwrapGoogleNewsUrl (env : Environment) (url : String) : String × Bool :=
  if isGoogleNewsUrl env url then
    match decodeGoogleNewsUrl env url with
    | some real => if real = "" then (url, false) else (real, true)
    | none => (url, false)
  else (url, false)

/-! ## Items and rows -/

/-- A source item; `raw` is the JSON text of the whole. -/
structure Item where
  title : Option String := none
  url : Option String := none
  docId : Option String := none
  eventKey : Option String := none
  source : Option String := none
  sourceId : Option String := none
  sourceClass : Option String := none
  leadClass : Option String := none
  time : Option String := none
  publishedAt : Option String := none
  raw : String

inductive Status
  | new
  | extracted
  | ready
  | analyzed
  | dropped
  | failedRetry
  | failedFinal
  deriving DecidableEq

structure RawItem where
  docId : String
  sourceId : String
  sourceClass : Option String
  leadClass : Option String
  url : String
  canonicalUrl : String
  title : String
  publishedAt : Option String
  fetchedAt : String
  rawJson : String
  status : Status
  error : Option String
  createdAt : String
  updatedAt : String

structure SourceHealth where
  lastSeenAt : String
  totalSeen : ℕ

structure Buffer where
  rawItems : Table String RawItem
  sourceHealth : Table String SourceHealth

/-- `item.get(key) or None`. -/
def given (field : Option String) : Option String := field.filter (· ≠ "")

namespace Item

variable (env : Environment) (item : Item)

def cleanTitle : String := strip (joinWords (item.title.getD ""))

def cleanUrl : String := strip (item.url.getD "")

def isEmpty : Prop := item.cleanTitle = "" ∧ item.cleanUrl = ""

instance isEmptyDecidable : Decidable item.isEmpty := inferInstanceAs (Decidable (_ ∧ _))

def storedUrl : String := (unwrapGoogleNewsUrl env item.cleanUrl).1

def canon : String :=
  let canon := canonicalUrl env (item.storedUrl env)
  match given item.eventKey with
  | some key => if item.sourceClass ≠ some "rss" then canon ++ "::" ++ key else canon
  | none => canon

/-- The id before it is known whether the article lies under its wrapper. -/
def ownId (nowIso : String) : String :=
  (given item.docId).getD (docIdFor env (item.canon env) item.cleanTitle nowIso)

def legacyId (nowIso : String) : String :=
  docIdFor env (canonicalUrl env item.cleanUrl) item.cleanTitle nowIso

def sourceName : String :=
  ((given item.source).orElse fun _ => given item.sourceId).getD "unknown"

end Item

namespace Buffer

variable (env : Environment)

/-- The id under which an item is looked up. -/
def docId (s : Buffer) (nowIso : String) (item : Item) : String :=
  if (unwrapGoogleNewsUrl env item.cleanUrl).2 ∧ given item.docId = none ∧
      item.legacyId env nowIso ≠ item.ownId env nowIso ∧
      (s.rawItems.row (item.legacyId env nowIso)).isSome then
    item.legacyId env nowIso
  else item.ownId env nowIso

/-- Another row than the one of the id has the canonical url. -/
def hasCanonical (s : Buffer) (canon : String) (except : Option String) : Bool :=
  s.rawItems.toList.any fun r => r.canonicalUrl = canon && some r.docId ≠ except

def see (s : Buffer) (source ts : String) : Buffer :=
  { s with sourceHealth := s.sourceHealth.upsert source ⟨ts, 1⟩ fun h =>
      ⟨ts, h.totalSeen + 1⟩ }

/-- `UPDATE raw_items` for an item whose id is known. -/
def refresh (s : Buffer) (id ts : String) (item : Item) : Buffer :=
  { s with rawItems := s.rawItems.modify id fun r => { r with
      title := orText item.cleanTitle r.title
      rawJson := item.raw
      fetchedAt := ts
      updatedAt := ts } }

/-- The row of a new item. -/
def newRow (id ts : String) (item : Item) : RawItem where
  docId := id
  sourceId := item.sourceName
  sourceClass := item.sourceClass
  leadClass := item.leadClass
  url := item.storedUrl env
  canonicalUrl := item.canon env
  title := item.cleanTitle
  publishedAt := (given item.time).orElse fun _ => item.publishedAt
  fetchedAt := ts
  rawJson := item.raw
  status := .new
  error := none
  createdAt := ts
  updatedAt := ts

/-- `INSERT INTO raw_items` for an item whose id is new. -/
def store (s : Buffer) (id ts : String) (item : Item) : Buffer :=
  { s with rawItems := s.rawItems.insert id (newRow env id ts item) }

end Buffer

/-- The tables and the counters of a batch. -/
structure Ingest where
  buffer : Buffer
  inserted : ℕ
  updated : ℕ

/-- One item of `ingest_items`, with the clock of the call. -/
def ingestItem (env : Environment) (ts : String) (b : Ingest) (item : Item) :
    Except String Ingest :=
  if item.isEmpty then .ok b
  else
    let id := b.buffer.docId env ts item
    if (b.buffer.rawItems.row id).isSome then
      .ok { b with
        buffer := (b.buffer.refresh id ts item).see item.sourceName ts
        updated := b.updated + 1 }
    else if b.buffer.hasCanonical (item.canon env) none then
      .error "UNIQUE constraint failed: raw_items.canonical_url"
    else
      .ok { b with
        buffer := (b.buffer.store env id ts item).see item.sourceName ts
        inserted := b.inserted + 1 }

/-- `ingest_items`: one transaction, so an item that raises undoes its batch. -/
def ingestItems (env : Environment) (ts : String) (s : Buffer) (items : List Item) :
    Except String Ingest :=
  items.foldlM (ingestItem env ts) ⟨s, 0, 0⟩

/-! ## Resolving -/

/-- What the fetch of a document brings: the real url of a wrapper, and an error. -/
structure Fetch where
  real : Option String
  error : Option String

/-- The rewrite of a row whose wrapper was resolved. -/
def Buffer.rewrite (env : Environment) (s : Buffer) (ts id real : String) : Buffer :=
  let canon := canonicalUrl env real
  { s with rawItems := s.rawItems.modify id fun r =>
      if s.hasCanonical canon (some id) then { r with url := real, updatedAt := ts }
      else { r with url := real, canonicalUrl := canon, updatedAt := ts } }

/-- One row of `resolve_pending`; only a wrapper is resolved. -/
def resolveRow (env : Environment) (ts : String) (s : Buffer) (pending : RawItem × Fetch) :
    Buffer :=
  let row := pending.1
  let s :=
    match given pending.2.real with
    | some real => if isGoogleNewsUrl env row.url then s.rewrite env ts row.docId real else s
    | none => s
  { s with rawItems := s.rawItems.modify row.docId fun r =>
      { r with status := .extracted, error := pending.2.error, updatedAt := ts } }

/-- The rows that `resolve_pending` selects. -/
def Buffer.selected (s : Buffer) (limit : ℕ) : List RawItem :=
  (sortOn RawItem.fetchedAt (s.rawItems.toList.filter fun r =>
    r.status = .new || r.status = .failedRetry)).take limit

/-- `resolve_pending`: it stops where the fetches end. -/
def resolvePending (env : Environment) (ts : String) (limit : ℕ) (s : Buffer)
    (fetches : List Fetch) : Buffer :=
  ((s.selected limit).zip fetches).foldl (resolveRow env ts) s

/-! ## Runs -/

inductive Action
  | ingest (ts : String) (items : List Item)
  | resolve (ts : String) (limit : ℕ) (fetches : List Fetch)

def Buffer.perform (env : Environment) (s : Buffer) : Action → Buffer
  | .ingest ts items =>
      match ingestItems env ts s items with
      | .ok b => b.buffer
      | .error _ => s
  | .resolve ts limit fetches => resolvePending env ts limit s fetches

def newsBuffer (env : Environment) : Machine Buffer Action where
  init s := s = ⟨.empty, .empty⟩
  enabled _ _ := True
  step := Buffer.perform env

end ResearchLab.Scout
