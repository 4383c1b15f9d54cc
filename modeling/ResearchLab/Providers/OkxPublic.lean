import Mathlib
import ResearchLab.Foundation.Sorting

/-!
# Candle windows from the public exchange

`OkxPublicMarketDataProvider.fetch_ohlcv` pages backwards through an exchange that answers with the
newest candles behind a cursor.
-/
namespace ResearchLab.Providers
open Foundation

def minuteMs : ℤ := 60000
def pageLimit : ℕ := 300
def maxPages : ℕ := 60
def maxWindowBars : ℕ := maxPages * pageLimit

/-- What the provider takes from the language: `str.strip`, `str.lower`, `str.upper` and `str.replace`
on names, `int` and `float` on the cells of a row, and the ISO date of a timestamp. -/
structure Python (F : Type) where
  timeframeKey : String → String
  instId : String → String
  int : String → Option ℤ
  float : String → Option F
  isoformat : ℤ → Option String

abbrev RawRow := List String

structure Bar (F : Type) where
  ts : ℤ
  date : String
  opening : F
  high : F
  low : F
  close : F
  vol : F
deriving DecidableEq, Repr

variable {F : Type}

/-! ## Rows -/

def rowTs (py : Python F) (raw : RawRow) : Option ℤ := raw[0]?.bind py.int

def isUnconfirmed (raw : RawRow) : Bool := decide (8 < raw.length) && decide (raw[8]? = some "0")

def normalizeRow (py : Python F) (raw : RawRow) (ts : ℤ) : Option (Bar F) := do
  let date ← py.isoformat ts
  let opening ← raw[1]?.bind py.float
  let high ← raw[2]?.bind py.float
  let low ← raw[3]?.bind py.float
  let close ← raw[4]?.bind py.float
  let vol ← raw[5]?.bind py.float
  return ⟨ts, date, opening, high, low, close, vol⟩

lemma normalizeRow_ts {py : Python F} {raw : RawRow} {ts : ℤ} {bar : Bar F}
    (h : normalizeRow py raw ts = some bar) : bar.ts = ts := by
  simp only [normalizeRow, Option.bind_eq_bind, Option.pure_def, Option.bind_eq_some_iff] at h
  obtain ⟨_, -, _, -, _, -, _, -, _, -, _, -, h⟩ := h
  cases h
  rfl

/-! ## Requests -/

structure MarketDataError where
  message : String
  reason : String := "provider_error"
  transient : Bool := false
deriving DecidableEq, Repr

inductive FetchError where
  | unsupported (timeframe : String)
  | endBeforeStart
  | exceedsCapacity (capacity : ℕ)
  | marketData (error : MarketDataError)
deriving DecidableEq, Repr

structure PageRequest where
  instId : String
  bar : String
  after : ℤ
  limit : ℕ
deriving DecidableEq, Repr

/-- The outcome of one attempt: an exception of the transport as it is classified, or the parsed
payload with its code and its list of rows. -/
inductive Reply where
  | raised (error : MarketDataError)
  | unexpected
  | payload (code : String) (data : Option (List RawRow))
deriving DecidableEq, Repr

/-- The clock at the start of each page, and the answer to each attempt. -/
structure Transport where
  late : ℕ → Bool
  reply : ℕ → ℕ → PageRequest → Reply

def attemptRows : Reply → Except MarketDataError (List RawRow)
  | .raised error => .error error
  | .unexpected => .error
      { message := "okx-public returned an unexpected payload", reason := "unexpected_payload" }
  | .payload code data =>
      if code = "0" ∨ code = "" then .ok (data.getD [])
      else .error
        { message := "okx-public API error code=" ++ code
          reason := if code = "50011" then "rate_limited" else "api_error"
          transient := decide (code ∈ ["50004", "50011", "50013", "50026"]) }

/-- `_fetch_page`: attempts until one succeeds, fails for good or is the last one. -/
def fetchPage (reply : ℕ → Reply) : ℕ → ℕ → Except MarketDataError (List RawRow)
  | 0, _ => .error { message := "okx-public request failed" }
  | left + 1, attempt =>
      match attemptRows (reply attempt) with
      | .ok rows => .ok rows
      | .error error =>
          if error.transient = false ∨ left = 0 then .error error
          else fetchPage reply left (attempt + 1)

/-! ## The pager -/

structure Provider where
  maxPages : ℕ
  retryAttempts : ℕ
deriving DecidableEq, Repr

/-- The constructor's lower bounds. -/
def Provider.init (maxPages retryAttempts : ℕ) : Provider := ⟨max 1 maxPages, max 1 retryAttempts⟩

def supportedTimeframes : List (String × String × ℤ) :=
  [("1m", "1m", minuteMs), ("5m", "5m", 5 * minuteMs), ("15m", "15m", 15 * minuteMs),
    ("1h", "1H", 60 * minuteMs), ("4h", "4H", 4 * 60 * minuteMs), ("1d", "1Dutc", 24 * 60 * 60000)]

def resolveTimeframe (py : Python F) (timeframe : String) : Except FetchError (String × ℤ) :=
  match supportedTimeframes.find? fun entry => entry.1 = py.timeframeKey timeframe with
  | some entry => .ok entry.2
  | none => .error (.unsupported timeframe)

/-- The oldest confirmed timestamp of a page so far, and the candles collected so far. -/
structure Scan (F : Type) where
  pageOldest : Option ℤ
  collected : List (Bar F)

def collect (py : Python F) (start_ts end_ts : ℤ) (collected : List (Bar F)) (raw : RawRow)
    (ts : ℤ) : List (Bar F) :=
  if (start_ts ≤ ts ∧ ts ≤ end_ts) ∧ ∀ bar ∈ collected, bar.ts ≠ ts then
    collected ++ (normalizeRow py raw ts).toList
  else collected

def scanRow (py : Python F) (start_ts end_ts : ℤ) (scan : Scan F) (raw : RawRow) : Scan F :=
  match rowTs py raw with
  | none => scan
  | some ts =>
      if isUnconfirmed raw then scan
      else
        { pageOldest := some (scan.pageOldest.elim ts fun oldest => min oldest ts)
          collected := collect py start_ts end_ts scan.collected raw ts }

def fetchPages (py : Python F) (net : Transport) (provider : Provider) (instId bar : String)
    (start_ts end_ts : ℤ) : ℕ → ℕ → ℤ → List (Bar F) → Except FetchError (List (Bar F))
  | 0, _, _, collected => .ok collected
  | left + 1, page, cursor, collected =>
      if net.late page then
        .error (.marketData
          { message := "okx-public whole-fetch deadline exceeded"
            reason := "fetch_deadline"
            transient := true })
      else
        match fetchPage (fun attempt => net.reply page attempt ⟨instId, bar, cursor, pageLimit⟩)
            provider.retryAttempts 0 with
        | .error error => .error (.marketData error)
        | .ok rows =>
            if rows = [] then .ok collected
            else
              let scan := rows.foldl (scanRow py start_ts end_ts) ⟨none, collected⟩
              match scan.pageOldest with
              | none => .ok scan.collected
              | some oldest =>
                  if oldest ≤ start_ts ∨ rows.length < pageLimit then .ok scan.collected
                  else fetchPages py net provider instId bar start_ts end_ts left (page + 1) oldest
                    scan.collected

def fetchOhlcv (py : Python F) (net : Transport) (provider : Provider) (symbol timeframe : String)
    (start_ts end_ts : ℤ) : Except FetchError (List (Bar F)) :=
  match resolveTimeframe py timeframe with
  | .error error => .error error
  | .ok (okxBar, intervalMs) =>
      if end_ts < start_ts then .error .endBeforeStart
      else
        let requestedBars := (end_ts - start_ts) / intervalMs + 1
        let fetchCapacity := min maxWindowBars (provider.maxPages * pageLimit)
        if requestedBars > fetchCapacity then .error (.exceedsCapacity fetchCapacity)
        else
          match fetchPages py net provider (py.instId symbol) okxBar start_ts end_ts
              provider.maxPages 0 (end_ts + intervalMs) [] with
          | .error error => .error error
          | .ok collected => .ok (sortOn Bar.ts collected)

end ResearchLab.Providers
