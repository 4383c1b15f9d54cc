import ResearchLab.Candles.Store

/-!
# Readers of the candle store

The current view `_read_v1`, the point-in-time view `read_snapshot` with its manifest, and `read`
over both.
-/
namespace ResearchLab.Candles
open Foundation Foundation.IntOrder

variable {ν φ : Type}

/-! ## Rows as they are read -/

/-- The private fields that a row of `candle_revisions` adds to a candle. -/
structure Lineage (φ : Type) where
  revisionId : String
  contentHash : String
  observed : ℤ
  available : ℤ
  acquired : ℤ
  parentRevisionId : String
  fieldProvenance : List (String × JsonValue φ)

/-- What `build_snapshot` adds to its rows. -/
structure SnapshotRef where
  snapshotId : String
  evidenceHash : String
  provenanceStatus : String
  deriving DecidableEq, Repr

/-- A candle as a reader returns it: its public fields and, apart from them, the private ones. -/
structure ReadRow (φ : Type) where
  ts : ℤ
  fields : List (String × JsonValue φ)
  source : String
  lineage : Option (Lineage φ)
  provenanceStatus : Option String
  snapshot : Option SnapshotRef

section
variable [LinearOrder φ] [Zero φ]

def Candle.read (c : Candle φ) : ReadRow φ :=
  ⟨c.ts, c.fields, c.source, none, none, none⟩

def Revision.read (r : Revision φ) : ReadRow φ :=
  { ts := r.ts, fields := r.fields, source := r.source
    lineage := some ⟨r.revisionId, r.contentHash, r.observed, r.available, r.acquired,
      r.parentRevisionId.getD "", r.fieldProvenance⟩
    provenanceStatus := some "complete", snapshot := none }

end

/-! ## The manifest of a snapshot -/

def gapCountOfRows (rows : List (ReadRow φ)) (timeframe : Timeframe) : ℕ :=
  gapCount timeframe.ms (rows.map ReadRow.ts)

structure SnapshotCoverage where
  expected : ℤ
  missing : ℤ
  gaps : ℕ
  status : String
  deriving DecidableEq, Repr

/-- `_coverage` of rows in the order of their timestamps. -/
def snapshotCoverage (rows : List (ReadRow φ)) (timeframe : Timeframe) (startTs endTs : ℤ)
    (policy : String) : SnapshotCoverage :=
  match rows.head?, rows.getLast? with
  | some first, some last =>
      let gaps := gapCountOfRows rows timeframe
      let expected := max 0 ((endTs - startTs) / timeframe.ms + 1)
      let inRange : ℤ := (rows.filter fun r => startTs ≤ r.ts ∧ r.ts ≤ endTs).length
      let complete := first.ts ≤ startTs ∧ endTs ≤ last.ts ∧ gaps = 0 ∧ inRange = expected
      { expected, missing := max 0 (expected - inRange), gaps
        status :=
          if policy = "available" then "available"
          else if policy = "gap_free" then if gaps = 0 then "complete" else "incomplete"
          else if complete then "complete" else "incomplete" }
  | _, _ => ⟨0, 0, 0, "missing"⟩

/-- The identity of a row whose availability is not known. -/
def legacyRevisionRef (py : Python ν φ) (symbol : String) (timeframe : Timeframe)
    (row : ReadRow φ) : String :=
  "legacy_" ++ py.sha256 (dumps py true (.obj [
    ("schema", .str "LegacyCandleRevisionRef.v1"),
    ("symbol", .str (identitySymbol py symbol)),
    ("timeframe", .str timeframe.token),
    ("content_hash", .str (candleRowContentHash py row.fields)),
    ("provenance_status", .str (row.provenanceStatus.getD "legacy_unknown"))]))

/-- `row.get("_revision_id") or legacy_revision_ref(...)`. -/
def revisionRef (py : Python ν φ) (symbol : String) (timeframe : Timeframe) (row : ReadRow φ) :
    String :=
  match row.lineage with
  | some l => if l.revisionId = "" then legacyRevisionRef py symbol timeframe row else l.revisionId
  | none => legacyRevisionRef py symbol timeframe row

/-- A header line, then one line for each row, hashed. -/
def fingerprint (py : Python ν φ) (schema : List (String × JsonValue φ)) (symbol : String)
    (timeframe : Timeframe) (rows : List (ReadRow φ)) (line : ReadRow φ → String) : String :=
  let header := dumps py true (.obj (schema ++ [
    ("symbol", .str (identitySymbol py symbol)),
    ("timeframe", .str timeframe.token),
    ("rows", .int rows.length)]))
  String.ofList ((py.sha256 (String.join
    ((header :: rows.map line).map fun l => l ++ "\n"))).toList.take 20)

def candleSliceFingerprint (py : Python ν φ) (symbol : String) (timeframe : Timeframe)
    (rows : List (ReadRow φ)) : String :=
  fingerprint py [] symbol timeframe rows fun r => candleRowContentHash py r.fields

def candleEvidenceFingerprint (py : Python ν φ) (symbol : String) (timeframe : Timeframe)
    (rows : List (ReadRow φ)) : String :=
  fingerprint py [("schema", .str "CandleEvidenceFingerprint.v2")] symbol timeframe rows fun r =>
    dumps py false (.obj [
      ("content_hash", .str (candleRowContentHash py r.fields)),
      ("revision_id", .str (revisionRef py symbol timeframe r)),
      ("source", .str r.source),
      ("observed_at_ms", r.lineage.elim .null fun l => .int l.observed),
      ("available_at_ms", r.lineage.elim .null fun l => .int l.available),
      ("field_provenance", .obj (r.lineage.elim [] Lineage.fieldProvenance))])

/-- `_row_provenance_is_valid` of the reference of one field. -/
def fieldRefIsValid (l : Lineage φ) (source field : String) : Bool :=
  match l.fieldProvenance.lookup field with
  | some (.obj ref) =>
      (match ref.lookup "revision_id" with
        | some (.str id) => id == l.revisionId
        | _ => false) &&
      (match ref.lookup "source" with
        | some (.str name) => name == source
        | _ => source == "") &&
      (match ref.lookup "available_at_ms", ref.lookup "observed_at_ms" with
        | some (.int available), some (.int observed) =>
            available == l.available && observed == l.observed
        | _, _ => false)
  | _ => false

def rowProvenanceIsValid (py : Python ν φ) (symbol : String) (timeframe : Timeframe)
    (asOfMs : Option ℤ) (row : ReadRow φ) : Bool :=
  match row.lineage with
  | none => false
  | some l =>
      let actualHash := candleRowContentHash py row.fields
      let publicFields := (row.fields.map Prod.fst).filter fun field => isPrivate field = false
      decide (l.revisionId ≠ "" ∧ l.contentHash ≠ "") &&
      decide (0 ≤ min l.observed (min l.available l.acquired)) &&
      decide (l.observed ≤ l.available ∧ l.available ≤ l.acquired) &&
      decide (∀ asOf ∈ asOfMs, l.available ≤ asOf) &&
      decide (l.contentHash = actualHash) &&
      decide (l.revisionId = candleRevisionId py symbol timeframe row.ts actualHash row.source
        l.observed l.available) &&
      decide (∀ field ∈ publicFields, field ∈ l.fieldProvenance.map Prod.fst) &&
      decide (∀ field ∈ l.fieldProvenance.map Prod.fst, field ∈ publicFields) &&
      publicFields.all (fieldRefIsValid l row.source)

structure SnapshotManifest where
  snapshotId : String
  symbol : String
  timeframe : Timeframe
  startTs : ℤ
  endTs : ℤ
  asOfMs : Option ℤ
  purpose : String
  coveragePolicy : String
  selectionPolicy : String
  contentHash : String
  evidenceHash : String
  revisionIds : List String
  rowCount : ℕ
  firstTs : Option ℤ
  lastTs : Option ℤ
  coverage : SnapshotCoverage
  provenanceStatus : String
  maxAvailableAtMs : Option ℤ
  sourceBackend : String
  deriving DecidableEq, Repr

def supportedCoveragePolicies : List String := ["available", "gap_free", "complete_range"]

/-- `str(text or default).strip().lower()`. -/
def policyToken (py : Python ν φ) (text default : String) : String :=
  py.lower (py.strip (if text = "" then default else text))

/-- What a snapshot is asked for, after the checks of `read_snapshot`. -/
structure SnapshotRequest where
  symbol : String
  timeframe : Timeframe
  startTs : ℤ
  endTs : ℤ
  asOfMs : Option ℤ
  purpose : String
  coveragePolicy : String

def buildSnapshotManifest (py : Python ν φ) (q : SnapshotRequest) (rows : List (ReadRow φ))
    (sourceBackend : String) : Except PyError SnapshotManifest :=
  let purpose := policyToken py q.purpose "unspecified"
  let policy := policyToken py q.coveragePolicy "available"
  if policy ∉ supportedCoveragePolicies then
    .error (.valueError ("unsupported candle coverage policy: " ++ py.quote q.coveragePolicy))
  else
    let revisionIds := rows.map (revisionRef py q.symbol q.timeframe)
    let provenanceStatus :=
      if rows ≠ [] ∧ rows.all (rowProvenanceIsValid py q.symbol q.timeframe q.asOfMs) = true then
        "complete"
      else if rows.any fun r => r.lineage.isSome then "invalid" else "legacy_unknown"
    let contentHash := if rows = [] then "" else candleSliceFingerprint py q.symbol q.timeframe rows
    let evidenceHash :=
      if rows = [] then "" else candleEvidenceFingerprint py q.symbol q.timeframe rows
    let coverage := snapshotCoverage rows q.timeframe q.startTs q.endTs policy
    let selectionPolicy := "latest_available_at_or_before.v1"
    let identity : JsonValue φ := .obj [
      ("schema", .str "CandleSnapshotManifest.v2"),
      ("symbol", .str q.symbol),
      ("timeframe", .str q.timeframe.token),
      ("start_ts", .int q.startTs),
      ("end_ts", .int q.endTs),
      ("as_of_ms", q.asOfMs.elim .null .int),
      ("purpose", .str purpose),
      ("coverage_policy", .str policy),
      ("selection_policy", .str selectionPolicy),
      ("content_hash", .str contentHash),
      ("evidence_hash", .str evidenceHash),
      ("revision_ids", .arr (revisionIds.map .str)),
      ("coverage_status", .str coverage.status),
      ("provenance_status", .str provenanceStatus)]
    .ok {
      snapshotId := "csm_" ++ py.sha256 (dumps py false identity)
      symbol := q.symbol, timeframe := q.timeframe, startTs := q.startTs, endTs := q.endTs
      asOfMs := q.asOfMs, purpose, coveragePolicy := policy, selectionPolicy, contentHash
      evidenceHash, revisionIds, rowCount := rows.length
      firstTs := rows.head?.map ReadRow.ts, lastTs := rows.getLast?.map ReadRow.ts, coverage
      provenanceStatus
      maxAvailableAtMs := (rows.filterMap fun r => r.lineage.map Lineage.available).max?
      sourceBackend }

structure Snapshot (φ : Type) where
  rows : List (ReadRow φ)
  manifest : SnapshotManifest

def buildSnapshot (py : Python ν φ) (q : SnapshotRequest) (rows : List (ReadRow φ)) :
    Except PyError (Snapshot φ) := do
  let rows := sortOn ReadRow.ts rows
  let manifest ← buildSnapshotManifest py q rows "sqlite"
  let ref : SnapshotRef := ⟨manifest.snapshotId, manifest.evidenceHash, manifest.provenanceStatus⟩
  return ⟨rows.map fun r => { r with snapshot := some ref }, manifest⟩

/-! ## Readers -/

/-- The arguments of a read. -/
structure ReadArgs where
  symbol : String
  timeframe : String
  startTs : ℤ
  endTs : ℤ
  limit : Option ℤ

/-- The arguments after their checks. -/
structure CheckedArgs where
  symbol : String
  timeframe : Timeframe
  startTs : ℤ
  endTs : ℤ
  cap : ℤ

def checkArgs (py : Python ν φ) (maxReadRows : ℤ) (a : ReadArgs) : Except PyError CheckedArgs := do
  let symbol ← normalizeSymbol py a.symbol
  let timeframe ← normalizeTimeframe py a.timeframe
  if a.endTs < a.startTs then throw (.valueError "end_ts must be >= start_ts")
  let cap := a.limit.getD maxReadRows
  if cap < 1 ∨ maxReadRows < cap then
    throw (.valueError ("read limit must be between 1 and " ++ toString maxReadRows))
  return ⟨symbol, timeframe, a.startTs, a.endTs, cap⟩

/-- Rows in excess of the cap make a read fail; the statement itself stops one row behind it. -/
def capped {α : Type} (cap : ℤ) (rows : List α) : Except PyError (List α) :=
  let fetched := rows.take (cap + 1).toNat
  if cap < fetched.length then
    .error (.candleStoreError ("requested range exceeds bounded read cap (" ++ toString cap ++
      " rows); split the range"))
  else .ok fetched

section
variable [LinearOrder φ] [Zero φ]

/-- The rows of `candles` in a range, `ORDER BY ts`. -/
def currentRows (candles : Table CandleKey (Candle φ)) (c : CheckedArgs) : List (Candle φ) :=
  ((seriesTs candles c.symbol c.timeframe).filter fun ts => c.startTs ≤ ts ∧ ts ≤ c.endTs).filterMap
    fun ts => candles.row (c.symbol, c.timeframe, ts)

def readV1 (py : Python ν φ) (maxReadRows : ℤ) (s : Store φ) (a : ReadArgs) :
    Except PyError (List (ReadRow φ)) :=
  if s.present = false then .ok []
  else do
    let c ← checkArgs py maxReadRows a
    bindInts [c.startTs, c.endTs, c.cap + 1]
    let rows ← capped c.cap (currentRows s.tables.candles c)
    return rows.map Candle.read

/-- The revisions of a range that were available at the boundary. -/
def visibleRevisions (log : Table String (Revision φ)) (c : CheckedArgs) (boundary : ℤ) :
    List (Revision φ) :=
  log.toList.filter fun r => r.symbol = c.symbol ∧ r.timeframe = c.timeframe ∧
    c.startTs ≤ r.ts ∧ r.ts ≤ c.endTs ∧ r.available ≤ boundary

/-- The rows of rank one, where `ROW_NUMBER()` counts the revisions of each timestamp, in the order
of the timestamps. -/
def rankOne (visible : List (Revision φ)) : List (Revision φ) :=
  (sortOn id (visible.map fun r => r.ts).dedup).filterMap fun ts =>
    (visible.filter fun r => r.ts = ts).argmax Revision.rank

/-- The boundary of a read that names none. -/
def maxBoundary : ℤ := 9223372036854775807

/-- The revisions that a snapshot reads. -/
def snapshotRevisions (s : Store φ) (c : CheckedArgs) (asOfMs : Option ℤ) :
    Except PyError (List (Revision φ)) :=
  if s.present = false then .ok []
  else do
    let boundary := asOfMs.getD maxBoundary
    bindInts [c.startTs, c.endTs, boundary, c.cap + 1]
    capped c.cap (rankOne (visibleRevisions s.tables.revisions c boundary))

/-- Rows of `candles` that no revision stands behind stay in a read without boundary; where two rows
share a timestamp the later one in the list counts. -/
def mergeLegacy (legacy rows : List (ReadRow φ)) : List (ReadRow φ) :=
  let assigned := legacy.map (fun r => { r with provenanceStatus := some "legacy_unknown" }) ++ rows
  (sortOn id (assigned.map ReadRow.ts).dedup).filterMap fun ts =>
    assigned.reverse.find? fun r => r.ts = ts

def readSnapshot (py : Python ν φ) (maxReadRows : ℤ) (s : Store φ) (a : ReadArgs)
    (asOfMs : Option ℤ) (purpose coveragePolicy : String) : Except PyError (Snapshot φ) := do
  let c ← checkArgs py maxReadRows a
  let revisions ← snapshotRevisions s c asOfMs
  let rows := revisions.map Revision.read
  let rows ← match asOfMs with
    | some _ => .ok rows
    | none =>
        (readV1 py maxReadRows s { a with symbol := c.symbol, timeframe := c.timeframe.token }).map
          fun legacy => mergeLegacy legacy rows
  buildSnapshot py
    ⟨c.symbol, c.timeframe, c.startTs, c.endTs, asOfMs, purpose, coveragePolicy⟩ rows

inductive ReaderVersion
  | v1 | v2
  deriving DecidableEq, Repr

def readerVersion (py : Python ν φ) (version : String) : Except PyError ReaderVersion :=
  let token := py.lower (py.strip version)
  if token = "v1" then .ok .v1
  else if token = "v2" then .ok .v2
  else .error (.valueError ("unsupported candle reader version: " ++ py.quote version))

def read (py : Python ν φ) (maxReadRows : ℤ) (s : Store φ) (a : ReadArgs) (version : String) :
    Except PyError (List (ReadRow φ)) := do
  match ← readerVersion py version with
  | .v1 => readV1 py maxReadRows s a
  | .v2 =>
      let snapshot ← readSnapshot py maxReadRows s a none "compat_read" "available"
      return snapshot.rows

end
end ResearchLab.Candles
