import ResearchLab.Candles.Rows
import ResearchLab.Foundation.Machine
import ResearchLab.Foundation.Table
import Mathlib.Data.List.MinMax

/-!
# The candle store

`upsert_candles` over the tables `candle_revisions`, `candles` and `series`. Every row of a batch
is checked before the first write; the writes are one transaction, which an error rolls back.
What the disk, the clock and SQLite answer is the environment of a call.
-/
namespace ResearchLab.Candles
open Foundation Foundation.IntOrder

section Tables
variable {φ : Type} [LinearOrder φ] [Zero φ]

/-- A row of `candle_revisions`. -/
structure Revision (φ : Type) [LinearOrder φ] [Zero φ] extends Columns φ, Times where
  revisionId : String
  symbol : String
  timeframe : Timeframe
  contentHash : String
  acquisitionOrder : ℕ
  parentRevisionId : Option String
  fieldProvenance : List (String × JsonValue φ)

structure SeriesRow where
  firstTs : Option ℤ
  lastTs : Option ℤ
  rowCount : ℕ
  gapCount : ℕ
  source : String
  updatedAtMs : ℤ
  deriving DecidableEq, Repr

abbrev CandleKey := String × Timeframe × ℤ

structure Tables (φ : Type) [LinearOrder φ] [Zero φ] where
  revisions : Table String (Revision φ)
  candles : Table CandleKey (Candle φ)
  series : Table (String × Timeframe) SeriesRow

/-- The database: its file, with the tables in it, is made by the first write. -/
structure Store (φ : Type) [LinearOrder φ] [Zero φ] where
  present : Bool
  tables : Tables φ

def Tables.empty : Tables φ := ⟨.empty, .empty, .empty⟩

namespace Revision

def key (r : Revision φ) : CandleKey := (r.symbol, r.timeframe, r.ts)

/-- `ORDER BY available_at_ms, acquired_at_ms, acquisition_order, revision_id`. -/
def rank (r : Revision φ) : ℤ ×ₗ ℤ ×ₗ ℕ ×ₗ String :=
  toLex (r.available, toLex (r.acquired, toLex (r.acquisitionOrder, r.revisionId)))

/-- The columns that the current row of a candle takes from a revision. -/
def candle (r : Revision φ) : Candle φ := { r.toColumns with ingestedAtMs := r.acquired }

end Revision

/-- The revisions of one candle. -/
def revisionsAt (log : Table String (Revision φ)) (key : CandleKey) : List (Revision φ) :=
  log.toList.filter fun r => r.key = key

/-- The first row in descending order of rank. -/
def latest (log : Table String (Revision φ)) (key : CandleKey) : Option (Revision φ) :=
  (revisionsAt log key).argmax Revision.rank

end Tables

/-! ## One call -/

structure Batch (ν : Type) where
  symbol : String
  timeframe : String
  rows : List (Row ν)
  source : String
  strict : Bool
  ingestedAtMs : Option ℤ
  observedAtMs : Option ℤ
  availableAtMs : Option ℤ
  acquiredAtMs : Option ℤ

/-- The statements at which SQLite may fail. -/
inductive Statement
  | initializeStore
  | append (order : ℕ)
  | project (ts : ℤ)
  | refresh
  | commit
  deriving DecidableEq, Repr

structure Env where
  usageBytes : ℕ
  nowMs : ℤ
  fails : Statement → Bool

structure Coverage where
  symbol : String
  timeframe : Timeframe
  firstTs : Option ℤ
  lastTs : Option ℤ
  rowCount : ℕ
  gapCount : ℕ
  expectedRows : ℤ
  missingRows : ℤ
  updatedAtMs : Option ℤ
  deriving DecidableEq, Repr

structure UpsertResult where
  symbol : String
  timeframe : Timeframe
  accepted : ℕ
  insertedOrUpdated : ℕ
  rejected : ℕ
  coverage : Coverage
  deriving DecidableEq, Repr

def hardBudgetBytes : ℕ := 2000000000

/-- A parameter of a statement is a 64-bit integer. -/
def bindInts (parameters : List ℤ) : Except PyError Unit :=
  if ∀ n ∈ parameters, -9223372036854775808 ≤ n ∧ n ≤ 9223372036854775807 then .ok () else .error .overflowError

def databaseFailed : PyError := .candleStoreError "canonical candle database operation failed"

/-- A statement of the write transaction. -/
def Env.execute (env : Env) (statement : Statement) : Except PyError Unit :=
  if env.fails statement then .error databaseFailed else .ok ()

variable {ν φ : Type} [LinearOrder φ] [Zero φ]

/-- A row that passed its checks. -/
structure NormalizedRow (φ : Type) [LinearOrder φ] [Zero φ] where
  clean : Candle φ
  revisionId : String
  contentHash : String
  times : Times
  acquisitionOrder : ℕ
  fieldProvenance : List (String × JsonValue φ)

/-- The provenance times that rows without their own take. -/
structure DefaultTimes where
  now : ℤ
  available : ℤ
  observed : ℤ

def Batch.defaultTimes (env : Env) (batch : Batch ν) : Except PyError DefaultTimes :=
  let now := (batch.acquiredAtMs.or batch.ingestedAtMs).getD env.nowMs
  let available := batch.availableAtMs.getD now
  let observed := batch.observedAtMs.getD available
  match batch.ingestedAtMs, batch.acquiredAtMs with
  | some ingested, some acquired =>
      if ingested ≠ acquired then
        .error (.valueError "ingested_at_ms and acquired_at_ms disagree")
      else (validateProvenanceTimes observed available now).map fun _ => ⟨now, available, observed⟩
  | _, _ => (validateProvenanceTimes observed available now).map fun _ => ⟨now, available, observed⟩

/-- The checks of one row, inside the `try` of the loop, and the identity of its revision. -/
def checkRow (py : Python ν φ) (symbol : String) (timeframe : Timeframe) (source : String)
    (default : DefaultTimes) (order : ℕ) (row : Row ν) : Except PyError (NormalizedRow φ) := do
  let acquired ← rowTime py row "acquired_at_ms" default.now
  let available ← rowTime py row "available_at_ms" default.available
  let observed ← rowTime py row "observed_at_ms" default.observed
  let times ← validateProvenanceTimes observed available acquired
  let rowSource := (((row.lookup "_source").filter py.truthy).or
    ((row.lookup "source").filter py.truthy)).elim source py.str
  let clean ← normalizeRow py row rowSource acquired
  let content := clean.fields
  let contentHash := candleRowContentHash py content
  let revisionId := candleRevisionId py symbol timeframe clean.ts contentHash rowSource observed
    available
  return {
    clean, revisionId, contentHash, times
    acquisitionOrder := order
    fieldProvenance := fieldProvenance content revisionId rowSource observed available }

/-- The loop over the rows: a rejected row stops a strict batch and is counted in another one; every
other error stops the batch. -/
def normalizeRows (strict : Bool) (check : ℕ → Row ν → Except PyError (NormalizedRow φ)) :
    ℕ → List (Row ν) → Except PyError (List (NormalizedRow φ) × ℕ)
  | _, [] => .ok ([], 0)
  | order, row :: rows =>
      match check order row with
      | .ok normalized =>
          (normalizeRows strict check (order + 1) rows).map fun p => (normalized :: p.1, p.2)
      | .error (.candleValidationError message) =>
          if strict then .error (.candleValidationError message)
          else (normalizeRows strict check (order + 1) rows).map fun p => (p.1, p.2 + 1)
      | .error e => .error e

/-- What a batch is once it passed its checks. -/
structure Prepared (φ : Type) [LinearOrder φ] [Zero φ] where
  symbol : String
  timeframe : Timeframe
  now : ℤ
  rows : List (NormalizedRow φ)
  rejected : ℕ

def prepare (py : Python ν φ) (env : Env) (batch : Batch ν) : Except PyError (Prepared φ) := do
  if hardBudgetBytes ≤ env.usageBytes then
    throw (.candleStoreError
      "candle store hard disk budget reached; review retention before adding data")
  let symbol ← normalizeSymbol py batch.symbol
  let timeframe ← normalizeTimeframe py batch.timeframe
  let default ← batch.defaultTimes env
  let (rows, rejected) ← normalizeRows batch.strict
    (checkRow py symbol timeframe batch.source default) 0 batch.rows
  return ⟨symbol, timeframe, default.now, rows, rejected⟩

/-- The timestamps of the accepted rows, in order. -/
def Prepared.acceptedTs (p : Prepared φ) : List ℤ :=
  sortOn id (p.rows.map fun n => n.clean.ts).dedup

/-- The revision of a normalised row. -/
def NormalizedRow.revision (symbol : String) (timeframe : Timeframe)
    (parentRevisionId : Option String) (n : NormalizedRow φ) : Revision φ :=
  { n.clean.toColumns, n.times with
    revisionId := n.revisionId, symbol, timeframe, contentHash := n.contentHash
    acquisitionOrder := n.acquisitionOrder, parentRevisionId
    fieldProvenance := n.fieldProvenance }

/-- `INSERT OR IGNORE INTO candle_revisions`, under the latest revision of the candle so far. -/
def appendRevision (env : Env) (symbol : String) (timeframe : Timeframe)
    (log : Table String (Revision φ)) (n : NormalizedRow φ) :
    Except PyError (Table String (Revision φ)) := do
  bindInts [n.clean.ts]
  let parent := latest log (symbol, timeframe, n.clean.ts)
  bindInts [n.clean.ts, n.times.observed, n.times.available, n.times.acquired, n.acquisitionOrder]
  env.execute (.append n.acquisitionOrder)
  return log.insert n.revisionId
    (n.revision symbol timeframe (parent.map fun r => r.revisionId))

/-- The latest revision of a candle becomes its current row. -/
def projectLatest (env : Env) (symbol : String) (timeframe : Timeframe)
    (log : Table String (Revision φ)) (candles : Table CandleKey (Candle φ)) (ts : ℤ) :
    Except PyError (Table CandleKey (Candle φ)) :=
  match latest log (symbol, timeframe, ts) with
  | none => .ok candles
  | some r => do
      env.execute (.project ts)
      return candles.upsert (symbol, timeframe, ts) r.candle fun _ => r.candle

/-- The timestamps of a series, `ORDER BY ts`. -/
def seriesTs (candles : Table CandleKey (Candle φ)) (symbol : String) (timeframe : Timeframe) :
    List ℤ :=
  sortOn id ((candles.keys.filter fun k => k.1 = symbol ∧ k.2.1 = timeframe).map fun k => k.2.2)

/-- The timestamps that follow their predecessor, `LAG(ts) OVER (ORDER BY ts)`, by more than an
interval. -/
def gapCount (interval : ℤ) (stamps : List ℤ) : ℕ :=
  ((stamps.zip stamps.tail).filter fun p => interval < p.2 - p.1).length

def coverageFromValues (symbol : String) (timeframe : Timeframe) (firstTs lastTs : Option ℤ)
    (rowCount gapCount : ℕ) (updatedAtMs : Option ℤ) : Coverage :=
  let expected := match firstTs, lastTs with
    | some first, some last => (last - first) / timeframe.ms + 1
    | _, _ => 0
  { symbol, timeframe, firstTs, lastTs, rowCount, gapCount
    expectedRows := expected
    missingRows := max 0 (expected - rowCount)
    updatedAtMs }

def refreshSeries (env : Env) (symbol : String) (timeframe : Timeframe) (source : String)
    (nowMs : ℤ) (tables : Tables φ) : Except PyError (Tables φ × Coverage) := do
  let stamps := seriesTs tables.candles symbol timeframe
  let row : SeriesRow :=
    { firstTs := stamps.head?, lastTs := stamps.getLast?, rowCount := stamps.length
      gapCount := gapCount timeframe.ms stamps, source, updatedAtMs := nowMs }
  bindInts [nowMs]
  env.execute .refresh
  return ({ tables with series := tables.series.upsert (symbol, timeframe) row fun _ => row },
    coverageFromValues symbol timeframe row.firstTs row.lastTs row.rowCount row.gapCount nowMs)

/-- The statements of the write transaction. -/
def write (env : Env) (source : String) (p : Prepared φ) (tables : Tables φ) :
    Except PyError (Tables φ × Coverage) := do
  let log ← p.rows.foldlM (appendRevision env p.symbol p.timeframe) tables.revisions
  let candles ← p.acceptedTs.foldlM (projectLatest env p.symbol p.timeframe log) tables.candles
  let result ← refreshSeries env p.symbol p.timeframe source p.now
    { tables with revisions := log, candles }
  env.execute .commit
  return result

def upsertCandles (py : Python ν φ) (env : Env) (batch : Batch ν) (s : Store φ) :
    Except PyError UpsertResult × Store φ :=
  match prepare py env batch with
  | .error e => (.error e, s)
  | .ok p =>
      match env.execute .initializeStore with
      | .error e => (.error e, s)
      | .ok _ =>
          match write env batch.source p s.tables with
          | .error e => (.error e, { s with present := true })
          | .ok (tables, coverage) =>
              (.ok { symbol := p.symbol, timeframe := p.timeframe
                     accepted := p.acceptedTs.length
                     insertedOrUpdated := p.acceptedTs.length
                     rejected := p.rejected, coverage }, ⟨true, tables⟩)

/-- Batches in any order, on a store that starts without candles. -/
def candleStore (py : Python ν φ) : Machine (Store φ) (Env × Batch ν) where
  init s := s.tables = .empty
  enabled _ _ := True
  step s call := (upsertCandles py call.1 call.2 s).2

end ResearchLab.Candles
