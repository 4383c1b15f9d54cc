import Mathlib
import ResearchLab.Foundation.Keyed
import ResearchLab.Simulation.Growth

/-!
# The collector of forward trades

`true_forward`: a registered candidate pins the last bar present as its boundary. Each pass
simulates the signals of newer bars and those that were left pending, adds their trades to the sums
of the candidate, and keeps pending what may still close.
-/
namespace ResearchLab.TrueForward
open Foundation Simulation

def feesBps : ℚ := 7

def slipBps : ℚ := 3

def costs : Costs := ⟨feesBps, slipBps⟩

/-- The number of trades from which a candidate is matured. -/
def matureTrades : ℕ := 10

inductive Status
  | pendingNewBars | collecting | matured
  deriving DecidableEq

structure PendingSignal where
  entryTs : ℤ
  side : String
  reason : Option String
  regime : List (String × String)
  deriving DecidableEq

/-- The registry row of a candidate. -/
structure Row where
  family : String
  exit : String
  params : Params
  boundaryTs : ℤ
  lastCollectedTs : ℤ
  status : Status := .pendingNewBars
  forwardTrades : ℕ := 0
  forwardNetSum : ℚ := 0
  forwardMfeSum : ℚ := 0
  forwardMaeSum : ℚ := 0
  forwardTpBeforeSl : ℕ := 0
  pendingSignals : List PendingSignal := []

/-- The code outside the collector: the hash, the strategies and their default parameters. -/
structure Collector where
  sha256 : String → String
  generateSignals : List Candle → String → Params → List Signal
  executableExitParams : String → Params

/-- The timestamp of the last bar, or 0. -/
def lastTs (candles : List Candle) : ℤ := (candles.getLast?.map Candle.ts).getD 0

def register (family exit : String) (params : Params) (candles : List Candle) : Row where
  family
  exit
  params
  boundaryTs := lastTs candles
  lastCollectedTs := lastTs candles

variable (env : Collector)

/-! ## The simulator of a candidate -/

/-- The dictionary of the parameters is empty. -/
def isEmptyParams (params : Params) : Prop :=
  params.exitMode = none ∧ params.holdBars = none ∧ params.stopPct = none ∧ params.takePct = none ∧
    params.otherKeys = []

instance isEmptyParamsDecidable (params : Params) : Decidable (isEmptyParams params) :=
  inferInstanceAs (Decidable (_ ∧ _))

/-- `dict(row.get("params") or {}) or executable_exit_params(row["family"])`. -/
def rowParams (row : Row) : Params :=
  if isEmptyParams row.params then env.executableExitParams row.family else row.params

/-- `str(row.get("exit") or "baseline")`. -/
def exitName (row : Row) : String := if row.exit = "" then "baseline" else row.exit

/-- The mode of the grid that the exit names. -/
def gridMode (row : Row) : Option ExitMode :=
  if exitName row = "baseline" then none else (exitModes (rowParams env row)).lookup (exitName row)

/-- `_simulate`. -/
def simulate (row : Row) (candles : List Candle) (signals : List Signal) :
    Except String (List ExitModeTrade) :=
  if signals = [] then .ok []
  else
    match gridMode env row with
    | some mode =>
        simulateExitMode env.sha256 candles signals (rowParams env row) mode costs true
    | none =>
        (simulateTrades env.sha256 candles signals (rowParams env row) costs true).map
          (List.map .single)

/-- The bars to hold that `collect_one` works out by itself. -/
def collectHold (row : Row) : ℤ :=
  match gridMode env row with
  | some mode => mode.hold (rowParams env row)
  | none => (rowParams env row).holdBars.getD 5

/-! ## Pending signals -/

/-- The bar of a timestamp; of equal timestamps the last. -/
def idxOfTs (candles : List Candle) (ts : ℤ) : Option ℕ :=
  ((candles.zipIdx.filter fun bar => bar.1.ts = ts).getLast?).map Prod.snd

def rehydratePendingSignals (candles : List Candle) (pending : List PendingSignal) : List Signal :=
  pending.filterMap fun item => (idxOfTs candles item.entryTs).map fun idx =>
    { idx, side := item.side, reason := item.reason, regime := some item.regime }

/-- `(entry_ts, side)`. -/
def keyOf (candles : List Candle) (sig : Signal) : ℤ ×ₗ String :=
  toLex ((barAt candles sig.idx).ts, sig.side)

def pendingOf (candles : List Candle) (sig : Signal) : PendingSignal where
  entryTs := (barAt candles sig.idx).ts
  side := sig.side
  reason := sig.reason
  regime := sig.regime.getD []

def pendingForwardSignals (candles : List Candle) (signals : List Signal)
    (trades : List ExitModeTrade) (holdBars : ℤ) : List PendingSignal :=
  let completed : List (ℤ ×ₗ String) :=
    trades.map fun t => toLex (t.reading.entryTs, t.reading.side)
  (lastByKey (keyOf candles) (signals.filter fun sig => sig.idx < candles.length ∧
    (candles.length : ℤ) ≤ sig.idx + holdBars ∧ keyOf candles sig ∉ completed)).map
      (pendingOf candles)

/-! ## One pass -/

/-- What the validator reads of a partial record: it has a reconciliation, so that its prices and
its path are not looked at. -/
def partialEvidence (t : PartialTrade) : Trade where
  entryTs := t.entryTs
  exitTs := t.exitTs
  side := t.side
  entry := 0
  exit := 0
  grossPct := some t.grossPct
  netPct := t.netPct
  outcome := t.outcome
  reason := none
  regime := []
  mfePct := t.mfePct
  maePct := t.maePct
  captureOfMfe := t.captureOfMfe
  barsHeld := 0
  timeToMfe := 0
  timeToMae := 0
  tpBeforeSl := none
  barsToTp := none
  barsToSl := none
  adverseBeforeFavorable := false
  pathQuality := ""
  pathObservation := ""
  partialExitFraction := some t.partialExitFraction
  partialLegPrices := some t.partialLegPrices
  simulatorManifest := t.simulatorManifest
  simulatorModelId := t.simulatorModelId
  simulatorEvidenceTier := t.simulatorEvidenceTier
  unsupportedSimulatorDimensions := t.unsupportedSimulatorDimensions
  costLedger := t.costLedger
  quantityLedger := t.quantityLedger
  fillReconciliation := some t.fillReconciliation

def validateTrade : ExitModeTrade → Except String Unit
  | .single t => validateTradeContract env.sha256 t (legacyFixtureManifest env.sha256)
  | .scaledOut t =>
      validateTradeContract env.sha256 (partialEvidence t) (legacyFixtureManifest env.sha256)

/-- The sums with one more trade. -/
def Row.add (row : Row) (t : TradeReading) : Row :=
  { row with
    forwardTrades := row.forwardTrades + 1
    forwardNetSum := roundTo 4 (row.forwardNetSum + t.netPct)
    forwardMfeSum := roundTo 4 (row.forwardMfeSum + t.mfePct)
    forwardMaeSum := roundTo 4 (row.forwardMaeSum + t.maePct)
    forwardTpBeforeSl := if t.tpBeforeSl then row.forwardTpBeforeSl + 1 else row.forwardTpBeforeSl }

/-- `_accumulate`. -/
def accumulate (row : Row) (trades : List ExitModeTrade) (last : ℤ) : Except String Row := do
  let row ← trades.foldlM (fun row t => (validateTrade env t).map fun _ => row.add t.reading) row
  return { row with
    lastCollectedTs := last
    status := if matureTrades ≤ row.forwardTrades then .matured else .collecting }

/-- `int(row.get("last_collected_ts") or row.get("boundary_ts") or 0)`. -/
def collectedUpTo (row : Row) : ℤ :=
  if row.lastCollectedTs = 0 then row.boundaryTs else row.lastCollectedTs

/-- The signals of a pass: those left pending and those of newer bars. -/
def passSignals (row : Row) (candles : List Candle) : List Signal :=
  let newSignals := (env.generateSignals candles row.family (rowParams env row)).filter
    fun sig => collectedUpTo row < (barAt candles sig.idx).ts
  lastByKey (keyOf candles) (rehydratePendingSignals candles row.pendingSignals ++ newSignals)

/-- `collect_one`: the row that it writes and the trades that it counted. -/
def collectOne (row : Row) (candles : List Candle) : Except String (Row × List ExitModeTrade) :=
  if candles = [] ∨ ¬ ∃ bar ∈ candles, collectedUpTo row < bar.ts then .ok (row, [])
  else
    let signals := passSignals env row candles
    match simulate env row candles signals with
    | .error e => .error e
    | .ok trades =>
        let pendingSignals := pendingForwardSignals candles signals trades (collectHold env row)
        (accumulate env { row with pendingSignals } trades (lastTs candles)).map (·, trades)

/-- Passes over candles that grow, with all trades that were counted. -/
def collectPasses (row : Row) : List (List Candle) → Except String (Row × List ExitModeTrade)
  | [] => .ok (row, [])
  | candles :: rest =>
      match collectOne env row candles with
      | .error e => .error e
      | .ok (row, trades) => (collectPasses row rest).map fun r => (r.1, trades ++ r.2)

end ResearchLab.TrueForward
