import ResearchLab.Foundation.Json
import ResearchLab.Foundation.Sorting
import Mathlib

/-!
# Rows of a candle batch

What `upsert_candles` makes of one row before it writes anything: its provenance times, the
normalised candle and the identity of the revision. A column of JSON text holds the value of
its text.
-/
namespace ResearchLab.Candles
open Foundation Foundation.IntOrder

/-- The exceptions of the store. A validation error is a store error and no value error. -/
inductive PyError
  | keyError
  | typeError
  | overflowError
  | valueError (message : String)
  | candleStoreError (message : String)
  | candleValidationError (message : String)
  deriving DecidableEq, Repr

inductive PyFloat (φ : Type)
  | finite (x : φ)
  | infinity (negative : Bool)
  | nan
  deriving DecidableEq

abbrev JsonValue (φ : Type) := Json (PyFloat φ)

/-- `ch in "ABCDEFGHIJKLMNOPQRSTUVWXYZ0123456789_"`. -/
def isSymbolChar (c : Char) : Bool := c.isUpper || c.isDigit || c == '_'

def isLowerChar (c : Char) : Bool := c.isLower || c.isDigit || c == '_'

/-- What the store takes from the language: the conversions of the values `ν` that a row may hold,
functions on text, the text of a float and the hash. Only this much is used of them: neither
`strip` nor a change of case touches plain text that has the case already. -/
structure Python (ν φ : Type) where
  int : ν → Except PyError ℤ
  float : ν → Except PyError (PyFloat φ)
  str : ν → String
  truthy : ν → Bool
  isNone : ν → Bool
  /-- The JSON value of a value, refused by `json.dumps` where there is none. -/
  json : ν → Except PyError (JsonValue φ)
  /-- The UTC date of a timestamp in milliseconds. -/
  isoformat : ℤ → Except PyError String
  strip : String → String
  upper : String → String
  lower : String → String
  quote : String → String
  repr : PyFloat φ → List Char
  sha256 : String → String
  strip_plain : ∀ t : String, (∀ c ∈ t.toList, isSymbolChar c ∨ isLowerChar c) → strip t = t
  upper_plain : ∀ t : String, (∀ c ∈ t.toList, isSymbolChar c) → upper t = t
  lower_plain : ∀ t : String, (∀ c ∈ t.toList, isLowerChar c) → lower t = t

/-- `except (KeyError, TypeError, ValueError) as exc: raise CandleValidationError(message)`. -/
def orInvalid {α : Type} (message : String) : Except PyError α → Except PyError α
  | .error .keyError => .error (.candleValidationError message)
  | .error .typeError => .error (.candleValidationError message)
  | .error (.valueError _) => .error (.candleValidationError message)
  | result => result

abbrev Row (ν : Type) := List (String × ν)

/-! ## Series -/

inductive Timeframe
  | m1 | m5 | m15 | h1 | h4 | d1
  deriving DecidableEq, Repr

namespace Timeframe

def ms : Timeframe → ℤ
  | m1 => 60000
  | m5 => 300000
  | m15 => 900000
  | h1 => 3600000
  | h4 => 14400000
  | d1 => 86400000

def token : Timeframe → String
  | m1 => "1m"
  | m5 => "5m"
  | m15 => "15m"
  | h1 => "1h"
  | h4 => "4h"
  | d1 => "1d"

def all : List Timeframe := [m1, m5, m15, h1, h4, d1]

end Timeframe

variable {ν φ : Type}

def normalizeSymbol (py : Python ν φ) (symbol : String) : Except PyError String :=
  let token := (py.upper (py.strip symbol)).map fun c => if c = '-' ∨ c = '/' then '_' else c
  if token = "" ∨ ∃ c ∈ token.toList, isSymbolChar c = false then
    .error (.valueError ("unsupported candle symbol: " ++ py.quote symbol))
  else .ok token

def normalizeTimeframe (py : Python ν φ) (timeframe : String) : Except PyError Timeframe :=
  match Timeframe.all.find? fun t => t.token = py.lower (py.strip timeframe) with
  | none => .error (.valueError ("unsupported candle timeframe: " ++ py.quote timeframe))
  | some t => .ok t

/-! ## Provenance times -/

/-- When a row was observed, became available and was acquired: the checks of
`candle_revisions` on its times. -/
structure Times where
  observed : ℤ
  available : ℤ
  acquired : ℤ
  observed_nonneg : 0 ≤ observed
  observed_le : observed ≤ available
  available_le : available ≤ acquired

def validateProvenanceTimes (observed available acquired : ℤ) : Except PyError Times :=
  if hneg : min observed (min available acquired) < 0 then
    .error (.candleValidationError "candle provenance timestamps must be non-negative")
  else if hobserved : available < observed then
    .error (.candleValidationError "observed_at_ms must be <= available_at_ms")
  else if havailable : acquired < available then
    .error (.candleValidationError "available_at_ms must be <= acquired_at_ms")
  else .ok ⟨observed, available, acquired, by omega, by omega, by omega⟩

theorem validateProvenanceTimes_available {observed available acquired : ℤ} {times : Times}
    (h : validateProvenanceTimes observed available acquired = .ok times) :
    times.available = available := by
  simp only [validateProvenanceTimes] at h
  split_ifs at h
  cases h
  rfl

/-- `_row_time`: the private field, else the public one, else the default of the call. -/
def rowTime (py : Python ν φ) (row : Row ν) (field : String) (default : ℤ) : Except PyError ℤ :=
  match (row.lookup ("_" ++ field)).or (row.lookup field) with
  | none => .ok default
  | some v => orInvalid ("invalid candle provenance field: " ++ field) (py.int v)

/-! ## Candles -/

section
variable [LinearOrder φ] [Zero φ]

/-- The columns that `candles` and `candle_revisions` share, with the checks of both tables. -/
structure Columns (φ : Type) [LinearOrder φ] [Zero φ] where
  ts : ℤ
  open_ : φ
  high : φ
  low : φ
  close : φ
  vol : φ
  date : String
  source : String
  optional : List (Option φ)
  extra : List (String × JsonValue φ)
  low_le_high : low ≤ high
  vol_nonneg : 0 ≤ vol

/-- A row of `candles` after its key. -/
structure Candle (φ : Type) [LinearOrder φ] [Zero φ] extends Columns φ where
  ingestedAtMs : ℤ

def optionalFields : List String :=
  ["funding", "oi", "index_px", "obi_top5", "spread_bps", "trade_delta_100"]

def knownFields : List String :=
  ["ts", "date", "open", "high", "low", "close", "vol", "confirm", "source", "observed_at_ms",
    "available_at_ms", "acquired_at_ms", "ingested_at_ms"] ++ optionalFields

def isPrivate (key : String) : Bool := key.startsWith "_"

def required (row : Row ν) (field : String) : Except PyError ν :=
  match row.lookup field with
  | none => .error .keyError
  | some v => .ok v

/-- The required fields as numbers: the timestamp, then open, high, low, close and volume. -/
def requiredFields (py : Python ν φ) (row : Row ν) :
    Except PyError (ℤ × PyFloat φ × PyFloat φ × PyFloat φ × PyFloat φ × PyFloat φ) := do
  let ts ← required row "ts" >>= py.int
  let open_ ← required row "open" >>= py.float
  let high ← required row "high" >>= py.float
  let low ← required row "low" >>= py.float
  let close ← required row "close" >>= py.float
  let vol ← match row.lookup "vol" with
    | none => .ok (.finite 0)
    | some v => if py.truthy v then py.float v else .ok (.finite 0)
  return (ts, open_, high, low, close, vol)

def optionalField (py : Python ν φ) (row : Row ν) (field : String) :
    Except PyError (Option φ) :=
  match row.lookup field with
  | none => .ok none
  | some v =>
      if py.isNone v then .ok none
      else
        match orInvalid ("invalid optional candle field: " ++ field) (py.float v) with
        | .error e => .error e
        | .ok (.finite x) => .ok (some x)
        | .ok _ => .error (.candleValidationError ("non-finite optional candle field: " ++ field))

/-- The other fields of a row, as the JSON object of the column `extra_json`. -/
def extraFields (py : Python ν φ) (row : Row ν) : Except PyError (List (String × JsonValue φ)) :=
  let extras := row.filter fun p => p.1 ∉ knownFields ∧ isPrivate p.1 = false
  (orInvalid "candle extra fields are not JSON-serializable"
    (extras.mapM fun p => (p.1, ·) <$> py.json p.2)).map (sortOn Prod.fst)

def unconfirmed (py : Python ν φ) (row : Row ν) : Bool :=
  py.lower (py.strip ((row.lookup "confirm").elim "1" py.str)) ∈ ["0", "false", "no"]

/-- The date of a row. The one computed from the timestamp fails outside the calendar, with an
error that no caller takes for a rejected row. -/
def rowDate (py : Python ν φ) (row : Row ν) (ts : ℤ) : Except PyError String :=
  match row.lookup "date" with
  | none => py.isoformat ts
  | some v => if py.truthy v then .ok (py.str v) else py.isoformat ts

def normalizeRow (py : Python ν φ) (row : Row ν) (source : String) (ingestedAtMs : ℤ) :
    Except PyError (Candle φ) := do
  match ← orInvalid "candle has invalid required fields" (requiredFields py row) with
  | (ts, .finite open_, .finite high, .finite low, .finite close, .finite vol) =>
      if ts < 0 then
        throw (.candleValidationError "candle contains a negative timestamp or non-finite number")
      else if hvol : vol < 0 then
        throw (.candleValidationError "candle volume must be non-negative")
      else if hgeometry : high < max open_ (max low close) ∨ min open_ (min high close) < low then
        throw (.candleValidationError "candle OHLC geometry is impossible")
      else if unconfirmed py row then
        throw (.candleValidationError "unconfirmed candle is not durable market data")
      else
        let date ← rowDate py row ts
        let optional ← optionalFields.mapM (optionalField py row)
        let extra ← extraFields py row
        return {
          ts, open_, high, low, close, vol, date, source, optional, extra, ingestedAtMs
          low_le_high := by
            have hhigh := not_lt.1 (not_or.1 hgeometry).1
            exact (le_max_left low close).trans ((le_max_right open_ _).trans hhigh)
          vol_nonneg := not_lt.1 hvol }
  | _ => throw (.candleValidationError "candle contains a negative timestamp or non-finite number")

/-! ## Identities -/

/-- The public fields of a candle, as every reader returns them: `_clean_to_candle`, and
`_row_to_candle` on the same columns. -/
def Columns.fields (c : Columns φ) : List (String × JsonValue φ) :=
  let number (x : φ) : JsonValue φ := .float (.finite x)
  let row : List (String × JsonValue φ) :=
    [("ts", .int c.ts), ("date", .str c.date), ("open", number c.open_), ("high", number c.high),
      ("low", number c.low), ("close", number c.close), ("vol", number c.vol)] ++
    (optionalFields.zip c.optional).filterMap fun p => p.2.map fun x => (p.1, number x)
  row ++ c.extra.filter fun p => p.1 ∉ row.map Prod.fst

end

/-- `json.dumps(value, sort_keys=True, separators=(",", ":"))`. -/
def dumps (py : Python ν φ) (ensureAscii : Bool) (value : JsonValue φ) : String :=
  String.ofList (value.dumps { Json.canonical py.repr with ensureAscii := ensureAscii })

def derivedOrProvenance : List String :=
  ["confirm", "date", "source", "observed_at_ms", "available_at_ms", "acquired_at_ms",
    "ingested_at_ms"]

def candleRowContentHash (py : Python ν φ) (fields : List (String × JsonValue φ)) : String :=
  let content := fields.filter fun p => isPrivate p.1 = false ∧ p.1 ∉ derivedOrProvenance
  py.sha256 (dumps py false (.obj content))

/-- `str(symbol).replace("-", "_").upper()`. -/
def identitySymbol (py : Python ν φ) (symbol : String) : String :=
  py.upper (symbol.map fun c => if c = '-' then '_' else c)

def candleRevisionId (py : Python ν φ) (symbol : String) (timeframe : Timeframe) (ts : ℤ)
    (contentHash source : String) (observed available : ℤ) : String :=
  "cr_" ++ py.sha256 (dumps py false (.obj [
    ("schema", .str "CandleRevision.v2"),
    ("symbol", .str (identitySymbol py symbol)),
    ("timeframe", .str timeframe.token),
    ("ts", .int ts),
    ("content_hash", .str contentHash),
    ("source", .str source),
    ("observed_at_ms", .int observed),
    ("available_at_ms", .int available)]))

/-- `_field_provenance`: every field refers to the revision as a whole. -/
def fieldProvenance (fields : List (String × JsonValue φ)) (revisionId source : String)
    (observed available : ℤ) : List (String × JsonValue φ) :=
  (sortOn Prod.fst fields).map fun p =>
    (p.1, .obj [("revision_id", .str revisionId), ("source", .str source),
      ("observed_at_ms", .int observed), ("available_at_ms", .int available)])

end ResearchLab.Candles
