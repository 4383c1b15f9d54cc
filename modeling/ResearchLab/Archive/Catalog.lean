import Mathlib
import ResearchLab.Foundation.Checks
import ResearchLab.Foundation.Sorting
import ResearchLab.Foundation.Table

/-!
# The archive catalogue

Objects are stored under the digest of their compressed bytes, manifests under the artifact id and
their own digest, and the index is one row for each artifact id.
-/
namespace ResearchLab.Archive
open Foundation

abbrev Bytes := List UInt8

/-- The lines of a binary stream, each with its newline. -/
def byteLines : Bytes → List Bytes
  | [] => []
  | b :: bs =>
    if b = 10 then [b] :: byteLines bs
    else
      match byteLines bs with
      | [] => [[b]]
      | line :: lines => (b :: line) :: lines

/-- `not line.strip()`. -/
def blankLine (line : Bytes) : Bool := line.all (· ∈ [32, 9, 10, 13, 11, 12])

/-- `re.fullmatch` of one character and then between `least` and `most` others. -/
def fullmatch (head tail : Char → Bool) (least most : ℕ) (s : String) : Bool :=
  match s.toList with
  | [] => false
  | c :: cs => head c && cs.all tail && least ≤ cs.length && cs.length ≤ most

def lowerHex (c : Char) : Bool := c.isDigit || ('a' ≤ c && c ≤ 'f')

def isCommitSha (s : String) : Bool := fullmatch lowerHex lowerHex 39 39 s

def isArtifactId (s : String) : Bool :=
  "artifact_".toList.isPrefixOf s.toList && (s.toList.drop 9).all lowerHex &&
    s.toList.length = 41

def isSafeContour (s : String) : Bool :=
  fullmatch Char.isLower (fun c => c.isLower || c.isDigit || c = '_') 1 63 s

def isSafeSchema (s : String) : Bool :=
  fullmatch Char.isAlpha (fun c => c.isAlphanum || c ∈ ['_', '.', '-']) 1 95 s

def isStreamId (s : String) : Bool :=
  fullmatch Char.isLower (fun c => c.isLower || c.isDigit || c ∈ ['_', '.']) 2 95 s

/-! ## Manifests -/

/-- What an artifact id is the digest of. -/
structure ArtifactKey (δ : Type) where
  projectId : String
  streamId : String
  kind : String
  contour : String
  sourceRef : String
  sourceSha256 : δ
  payloadSchema : String

/-- `ArchiveArtifactManifest` without its own digest; `object_ref` is the path that its object's
digest names. -/
structure ManifestPayload (δ : Type) where
  schema : String
  artifactId : String
  projectId : String
  streamId : String
  kind : String
  contour : String
  payloadSchema : String
  sourceRevision : String
  sourceRef : String
  sourceSha256 : δ
  objectSha256 : δ
  logicalBytes : ℕ
  storedBytes : ℕ
  recordCount : ℕ
  firstObservedAt : String
  lastObservedAt : String
  sensitivity : String
  loadPolicy : String
  createdAt : String
  copyVerified : Bool
  restoreVerified : Bool
  deriving DecidableEq

structure Manifest (δ : Type) where
  payload : ManifestPayload δ
  manifestSha256 : String
  deriving DecidableEq

/-- What the catalogue takes from outside: digests, compression, JSON objects of lines (or why a
line is none) and the gate on sensitive data. -/
structure Platform (δ ρ : Type) where
  sha256 : Bytes → δ
  compress : Bytes → Bytes
  decompress : Bytes → Option Bytes
  decompress_compress : ∀ b, decompress (compress b) = some b
  artifactId : ArtifactKey δ → String
  manifestSha256 : ManifestPayload δ → String
  loads : Bytes → Except String ρ
  rowSchema : ρ → String
  sensitive : ρ → Bool
  sensitivePayload : ManifestPayload δ → Bool

/-- The fields of `PrivateArchiveCapability` that the catalogue reads. -/
structure Capability where
  projectId : String
  allowedKinds : List String
  allowedSensitivity : List String

structure Catalog (δ : Type) [DecidableEq δ] where
  objects : Table δ Bytes
  manifests : Table (String × String) (Manifest δ)
  index : Table String (Manifest δ)

section
variable {δ ρ : Type} [DecidableEq δ] (P : Platform δ ρ) (capability : Capability)

def Catalog.empty : Catalog δ := ⟨.empty, .empty, .empty⟩

/-- The message of the first check that fails. -/
def firstProblem (checks : List (Bool × String)) : Option String :=
  (checks.find? fun c => !c.1).map Prod.snd

theorem firstProblem_eq_none {checks : List (Bool × String)} :
    firstProblem checks = none ↔ ∀ c ∈ checks, c.1 := by
  simp [firstProblem]

/-- `_manifest_from_dict`; the shapes of the fields are their types. -/
def manifestProblem (m : Manifest δ) : Option String :=
  firstProblem
    [(m.payload.schema = "ArchiveArtifactManifest.v1", "archive manifest schema mismatch"),
     (isArtifactId m.payload.artifactId, "archive artifact id is invalid"),
     (m.payload.projectId = "trading-bot-v2", "archive manifest project mismatch"),
     (isStreamId m.payload.streamId, "archive stream id is invalid"),
     (isSafeContour m.payload.contour, "archive contour is invalid"),
     (isSafeSchema m.payload.payloadSchema, "archive payload schema is invalid"),
     (isCommitSha m.payload.sourceRevision, "archive source revision is invalid"),
     (P.manifestSha256 m.payload = m.manifestSha256, "archive manifest digest mismatch"),
     (!P.sensitivePayload m.payload, "sensitive value is forbidden")]

def loadPolicyOf (sensitivity : String) : String :=
  if sensitivity = "public_safe_derived" then "bounded_verified_payload" else "metadata_only"

/-! ## Registration -/

/-- A call of `register_jsonl`: its source (a reference below the source root and the bytes, or why
it is refused), whether the source kept still during the copy, the arguments, and what it finds
of the lock and the capability. -/
structure Registration where
  source : Except String (String × Bytes)
  stable : Bool := true
  streamId : String
  kind : String
  contour : String
  payloadSchema : String
  sourceRevision : String
  sensitivity : String
  firstObservedAt : String
  lastObservedAt : String
  createdAt : String
  restoreVerified : Bool := false
  lockAvailable : Bool := true
  capabilityCurrent : Bool := true

def recordCount (content : Bytes) : ℕ := ((byteLines content).filter (!blankLine ·)).length

/-- The content gate of a public-safe source. -/
def contentAccepted (schema : String) (content : Bytes) : Bool :=
  ((byteLines content).filter (!blankLine ·)).all fun line =>
    match P.loads line with
    | .error _ => false
    | .ok value => P.rowSchema value = schema && !P.sensitive value

/-- `_verify_gzip_restore`. -/
def restores (stored : Bytes) (sha : δ) (logicalBytes records : ℕ) : Bool :=
  match P.decompress stored with
  | none => false
  | some content =>
    P.sha256 content = sha && content.length = logicalBytes && recordCount content = records

def payloadOf (r : Registration) (sourceRef : String) (content : Bytes) : ManifestPayload δ where
  schema := "ArchiveArtifactManifest.v1"
  artifactId := P.artifactId
    { projectId := capability.projectId
      streamId := r.streamId
      kind := r.kind
      contour := r.contour
      sourceRef
      sourceSha256 := P.sha256 content
      payloadSchema := r.payloadSchema }
  projectId := capability.projectId
  streamId := r.streamId
  kind := r.kind
  contour := r.contour
  payloadSchema := r.payloadSchema
  sourceRevision := r.sourceRevision
  sourceRef
  sourceSha256 := P.sha256 content
  objectSha256 := P.sha256 (P.compress content)
  logicalBytes := content.length
  storedBytes := (P.compress content).length
  recordCount := recordCount content
  firstObservedAt := r.firstObservedAt
  lastObservedAt := r.lastObservedAt
  sensitivity := r.sensitivity
  loadPolicy := loadPolicyOf r.sensitivity
  createdAt := r.createdAt
  copyVerified := true
  restoreVerified := r.restoreVerified

def manifestOf (r : Registration) (sourceRef : String) (content : Bytes) : Manifest δ where
  payload := payloadOf P capability r sourceRef content
  manifestSha256 := P.manifestSha256 (payloadOf P capability r sourceRef content)

/-- What `register_jsonl` refuses before it copies. -/
def argumentProblem (r : Registration) : Option String :=
  firstProblem
    [(r.kind ∈ capability.allowedKinds, "archive kind is outside capability scope"),
     (isStreamId r.streamId, "archive stream id is invalid"),
     (r.sensitivity ∈ capability.allowedSensitivity, "archive sensitivity is invalid"),
     (r.kind ≠ "project_brain_events" || r.sensitivity = "public_safe_derived",
       "Project Brain event archives must be public-safe"),
     (isSafeContour r.contour, "archive contour is invalid"),
     (isSafeSchema r.payloadSchema, "archive payload schema is invalid"),
     (isCommitSha r.sourceRevision, "archive source revision is invalid")]

/-- What it refuses of the copy. -/
def copyProblem (r : Registration) (sourceRef : String) (content : Bytes) : Option String :=
  firstProblem
    [(r.sensitivity ≠ "public_safe_derived" || contentAccepted P r.payloadSchema content,
       "public-safe archive source failed content validation"),
     (r.stable, "archive source changed during copy"),
     (!r.restoreVerified || restores P (P.compress content) (P.sha256 content) content.length
       (recordCount content), "archive restore verification failed"),
     (!P.sensitivePayload (payloadOf P capability r sourceRef content),
       "sensitive value is forbidden")]

/-- `register_jsonl` up to the lock: the manifest and the bytes to store. -/
def prepare (r : Registration) : Except String (Manifest δ × Bytes) :=
  match argumentProblem capability r with
  | some problem => .error problem
  | none =>
    match r.source with
    | .error problem => .error problem
    | .ok (sourceRef, content) =>
      match copyProblem P capability r sourceRef content with
      | some problem => .error problem
      | none =>
        match manifestProblem P (manifestOf P capability r sourceRef content) with
        | some problem => .error problem
        | none => .ok (manifestOf P capability r sourceRef content, P.compress content)

/-- The object is linked under its digest, or is there. -/
def linkObject (catalog : Catalog δ) (sha : δ) (stored : Bytes) : Except String (Catalog δ) :=
  match catalog.objects.row sha with
  | none => .ok { catalog with objects := catalog.objects.insert sha stored }
  | some present =>
    if P.sha256 present = sha then .ok catalog
    else .error "content-addressed archive object differs"

/-- `_manifest_path`. -/
def Manifest.name (m : Manifest δ) : String × String := (m.payload.artifactId, m.manifestSha256)

def fileName (name : String × String) : String := name.1 ++ "." ++ name.2 ++ ".json"

/-- `_atomic_no_replace` of a manifest. -/
def publishManifest (catalog : Catalog δ) (m : Manifest δ) : Except String (Catalog δ) :=
  match catalog.manifests.row m.name with
  | none => .ok { catalog with manifests := catalog.manifests.insert m.name m }
  | some present =>
    if present = m then .ok catalog else .error "immutable archive target already differs"

/-- `_validate_object`. -/
def validateObject (catalog : Catalog δ) (m : Manifest δ) : Except String Bytes :=
  match catalog.objects.row m.payload.objectSha256 with
  | none => .error "archive object is absent or unsafe"
  | some stored =>
    if stored.length ≠ m.payload.storedBytes then .error "archive object size mismatch"
    else if P.sha256 stored ≠ m.payload.objectSha256 then .error "archive object digest mismatch"
    else .ok stored

/-- `_index_manifest`. -/
def indexManifest (index : Table String (Manifest δ)) (m : Manifest δ) :
    Table String (Manifest δ) :=
  index.upsert m.payload.artifactId m fun _ => m

/-- What `register_jsonl` does under the lock. -/
def fileManifest (catalog : Catalog δ) (m : Manifest δ) (stored : Bytes) :
    Catalog δ × Except String (Manifest δ) :=
  match linkObject P catalog m.payload.objectSha256 stored with
  | .error problem => (catalog, .error problem)
  | .ok linked =>
    match publishManifest linked m with
    | .error problem => (linked, .error problem)
    | .ok published =>
      match validateObject P published m with
      | .error problem => (published, .error problem)
      | .ok _ => ({ published with index := indexManifest published.index m }, .ok m)

/-- `register_jsonl`. -/
def registerJsonl (catalog : Catalog δ) (r : Registration) :
    Catalog δ × Except String (Manifest δ) :=
  match prepare P capability r with
  | .error problem => (catalog, .error problem)
  | .ok (m, stored) =>
    if !r.lockAvailable then (catalog, .error "archive catalog lock is unavailable")
    else if !r.capabilityCurrent then (catalog, .error "private archive capability changed")
    else fileManifest P catalog m stored

/-! ## Reading -/

/-- What `manifests` refuses of a reference. -/
def refAllowed (sourceRef : String) : Bool :=
  '\\' ∉ sourceRef.toList && sourceRef.toList.head? ≠ some '/' &&
    ['.', '.'] ∉ sourceRef.toList.splitOn '/'

/-- What `manifests` refuses of a file. -/
def fileProblem (name : String × String) (m : Manifest δ) : Option String :=
  (manifestProblem P m).or (firstProblem
    [(m.payload.kind ∈ capability.allowedKinds &&
        m.payload.sensitivity ∈ capability.allowedSensitivity &&
        m.payload.loadPolicy = loadPolicyOf m.payload.sensitivity && m.payload.copyVerified &&
        refAllowed m.payload.sourceRef, "archive manifest exceeds capability policy"),
     (name = m.name, "archive manifest filename mismatch")])

/-- The manifest files in the order of their names. -/
def manifestFiles (catalog : Catalog δ) : List ((String × String) × Manifest δ) :=
  sortOn (fun file => fileName file.1) catalog.manifests.entries

/-- `manifests`. -/
def manifests (catalog : Catalog δ) : Except String (List (Manifest δ)) :=
  (manifestFiles catalog).mapM fun file =>
    match fileProblem P capability file.1 file.2 with
    | some problem => .error problem
    | none => (validateObject P catalog file.2).map fun _ => file.2

/-- `rebuild_index`. -/
def rebuildIndex (catalog : Catalog δ) (lockAvailable capabilityCurrent : Bool) :
    Catalog δ × Except String ℕ :=
  match manifests P capability catalog with
  | .error problem => (catalog, .error problem)
  | .ok files =>
    if !lockAvailable then (catalog, .error "archive catalog lock is unavailable")
    else if !capabilityCurrent then (catalog, .error "private archive capability changed")
    else ({ catalog with index := files.foldl indexManifest .empty }, .ok files.length)

/-- The loop of `read_bounded_jsonl` over the lines of an object. -/
def readRecords (schema : String) (maxRecords maxBytes : ℕ) :
    ℕ → List ρ → List Bytes → Except String (List ρ)
  | _, records, [] => .ok records
  | consumed, records, line :: lines =>
    if maxBytes < consumed + line.length then .error "archive byte budget exceeded"
    else if blankLine line then readRecords schema maxRecords maxBytes (consumed + line.length)
      records lines
    else
      match P.loads line with
      | .error problem => .error problem
      | .ok value =>
        if P.rowSchema value ≠ schema then .error "archive payload schema mismatch"
        else if P.sensitive value then
          .error "archive payload failed the public-safe content gate"
        else if maxRecords ≤ (records ++ [value]).length then .ok (records ++ [value])
        else readRecords schema maxRecords maxBytes (consumed + line.length) (records ++ [value])
          lines

/-- `read_bounded_jsonl` from the one manifest that matches. -/
def readArtifact (catalog : Catalog δ) (m : Manifest δ) (maxRecords maxBytes : ℕ) :
    Except String (List ρ) :=
  if m.payload.sensitivity ≠ "public_safe_derived" ∨
      m.payload.loadPolicy ≠ "bounded_verified_payload" then
    .error "archive payload retrieval is not permitted"
  else
    match validateObject P catalog m with
    | .error problem => .error problem
    | .ok stored =>
      match P.decompress stored with
      | none => .error "archive object is not a gzip file"
      | some content =>
        readRecords P m.payload.payloadSchema maxRecords maxBytes 0 [] (byteLines content)

/-- `read_bounded_jsonl`. -/
def readBoundedJsonl (catalog : Catalog δ) (artifactId : String) (maxRecords maxBytes : ℕ) :
    Except String (List ρ) :=
  if ¬(0 < maxRecords ∧ maxRecords ≤ 1000) then .error "archive record budget is invalid"
  else if ¬(0 < maxBytes ∧ maxBytes ≤ 16 * 1024 * 1024) then .error "archive byte budget is invalid"
  else
    match manifests P capability catalog with
    | .error problem => .error problem
    | .ok files =>
      match files.filter fun m => m.payload.artifactId = artifactId with
      | [m] => readArtifact P catalog m maxRecords maxBytes
      | _ => .error "archive artifact is absent or ambiguous"

end
end ResearchLab.Archive
