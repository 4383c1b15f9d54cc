import Mathlib
import ResearchLab.Simulation.Exits

/-!
# The second simulator of dynamic exits

`exit_phase2`: the grid of exit modes around a candidate's own parameters and `simulate_exit_mode`.
Its scans are those of the production path line by line. It rounds the parameters of its modes to
four decimals, and it builds the record of a partial exit by itself.
-/
namespace ResearchLab.Simulation
open Foundation

/-- A mode of the grid; the bars to hold are those of the parameters unless the mode has its own. -/
structure ExitMode where
  rule : ExitRule
  holdBars : Option ℤ := none
  deriving DecidableEq

def exitModes (params : Params) : List (String × ExitMode) :=
  let stop := truthyOr params.stopPct 1
  let take := truthyOr params.takePct (stop * 2)
  let hold := if params.holdBars.getD 0 = 0 then 5 else params.holdBars.getD 0
  [("baseline", { rule := .fixed none }),
    ("early_tp", { rule := .fixed (some (roundTo 4 (take * (1 / 2)))) }),
    ("trailing", { rule := .trailing (roundTo 4 stop) }),
    ("trailing_tight", { rule := .trailing (roundTo 4 (stop * (1 / 2))) }),
    ("break_even", { rule := .breakEven (roundTo 4 stop) }),
    ("time_decay", { rule := .timeDecay }),
    ("partial_tp", { rule := .partialTake (roundTo 4 (take * (1 / 2))) (roundTo 4 take) }),
    ("hold_long", { rule := .fixed none, holdBars := some (hold * 2) })]

/-- `_scan`, the loop of `_scan_dynamic_exit`. -/
def scan (candles : List Candle) (idx cap : ℕ) (entry : ℚ) (side : String) (stopPct takePct : ℚ)
    (mode : ExitMode) : Exit :=
  scanDynamicExit candles idx cap entry side stopPct takePct mode.rule

/-! ## Partial exits -/

/-- What `_mk_partial` returns. -/
structure PartialRecord where
  entryTs : ℤ
  exitTs : ℤ
  side : String
  grossPct : ℚ
  netPct : ℚ
  outcome : Outcome
  mfePct : ℚ
  maePct : ℚ
  captureOfMfe : ℚ
  partialExitFraction : ℚ
  partialLegPrices : List ℚ
  fillReconciliation : QuantityReconciliation
  deriving DecidableEq

/-- `_mk_partial`: the record of a trade that sold `frac1` at `p1` and the rest at `p2`. -/
def mkPartial (candles : List Candle) (idx exitIdx : ℕ) (side : String) (entry p1 p2 frac1 : ℚ)
    (costPct : ℚ) (outcome : Outcome) : Except String PartialRecord := do
  let r1 := returnPct side entry p1
  let r2 := returnPct side entry p2
  let ret := if frac1 = 0 then r2 else frac1 * r1 + (1 - frac1) * r2
  let net := ret - costPct * 100
  let quantities := if frac1 = 0 then [1] else [frac1, 1 - frac1]
  let prices := if frac1 = 0 then [p2] else [p1, p2]
  let reconciliation ← reconcilePartialFills 1
    ((quantities.zip prices).map fun leg => ⟨leg.1, leg.2, costPct * 100⟩) entry side
  if 1 / 10 ^ 9 < |reconciliation.netReturnPct.getD 0 - net| then
    throw "partial fill reconciliation does not match trade return"
  return {
    entryTs := (barAt candles idx).ts
    exitTs := (barAt candles exitIdx).ts
    side
    grossPct := roundTo 4 ret
    netPct := roundTo 4 net
    outcome
    mfePct := roundTo 4 (max (max 0 r2) r1)
    maePct := 0
    captureOfMfe := 0
    partialExitFraction := frac1
    partialLegPrices := prices
    fillReconciliation := reconciliation }

/-- `_partial_net`: before the first half is sold the whole position leaves at one price. -/
def partialNet (candles : List Candle) (idx cap : ℕ) (entry : ℚ) (side : String)
    (stopPct tp1Pct tp2Pct costPct : ℚ) : Except String PartialRecord :=
  let long := isLong side
  let tp1 := level entry tp1Pct long
  let S := partialScanner long entry tp1 (level entry tp2Pct long)
  let start : PartialState := ⟨false, level entry stopPct !long⟩
  let bars := barsBetween candles idx cap
  let exit := exitOf candles idx cap (S.run start bars)
  let filled := (S.last start bars).filledFirst
  mkPartial candles idx exit.idx side entry (if filled then tp1.getD entry else exit.price)
    exit.price (if filled then 1 / 2 else 0) costPct exit.outcome

/-- A partial record with the fields that `simulate_exit_mode` adds. -/
structure PartialTrade extends PartialRecord where
  simulatorManifest : Manifest
  simulatorModelId : String
  simulatorEvidenceTier : String
  unsupportedSimulatorDimensions : List String
  costLedger : CostLedger
  quantityLedger : QuantityLedger
  deriving DecidableEq

def bindPartialRecord (sha256 : String → String) (t : PartialRecord) (costs : Costs) :
    Except String PartialTrade := do
  let manifest := legacyFixtureManifest sha256
  let fraction := t.partialExitFraction
  let quantity ← buildTradeQuantityLedger 1 (if 0 < fraction then [fraction, 1 - fraction] else [1])
  return {
    toPartialRecord := t
    simulatorManifest := manifest
    simulatorModelId := manifest.simulatorModelId
    simulatorEvidenceTier := manifest.evidenceTier
    unsupportedSimulatorDimensions := manifest.unsupportedDimensions
    costLedger := costs.ledger
    quantityLedger := quantity }

/-! ## `simulate_exit_mode` -/

/-- A trade of one exit, as `finalize_trade` builds it, or one of the partial mode. -/
inductive ExitModeTrade
  | single (t : Trade)
  | scaledOut (t : PartialTrade)
  deriving DecidableEq

def exitModeTrade (sha256 : String → String) (candles : List Candle) (params : Params)
    (mode : ExitMode) (costs : Costs) (requireCompleteHorizon : Bool) (sig : Signal) :
    Except String (Option ExitModeTrade) :=
  let hold := mode.holdBars.getD (params.holdBars.getD 5)
  let stopPct := params.stopPct.getD 0
  match holdingWindow candles sig.idx hold with
  | none => .ok none
  | some (cap, entry) =>
      match mode.rule with
      | .partialTake tp1Pct tp2Pct =>
          match partialNet candles sig.idx cap entry sig.side stopPct tp1Pct tp2Pct costs.pct with
          | .error e => .error e
          | .ok t =>
              if requireCompleteHorizon ∧ cutOff candles sig.idx hold t.outcome then .ok none
              else (bindPartialRecord sha256 t costs).map fun t => some (.scaledOut t)
      | _ =>
          let exit := scan candles sig.idx cap entry sig.side stopPct (params.takePct.getD 0) mode
          if requireCompleteHorizon ∧ cutOff candles sig.idx hold exit.outcome then .ok none
          else (finalizeTrade sha256 candles sig.idx sig.side entry exit sig costs.pct
            (some (legacyFixtureManifest sha256)) (some costs.ledger)).map fun t => some (.single t)

def simulateExitMode (sha256 : String → String) (candles : List Candle) (signals : List Signal)
    (params : Params) (mode : ExitMode) (costs : Costs) (requireCompleteHorizon : Bool) :
    Except String (List ExitModeTrade) :=
  tradesOf (exitModeTrade sha256 candles params mode costs requireCompleteHorizon) signals

/-! ## What a collector of forward trades reads -/

structure TradeReading where
  entryTs : ℤ
  exitTs : ℤ
  side : String
  outcome : Outcome
  netPct : ℚ
  mfePct : ℚ
  maePct : ℚ
  tpBeforeSl : Bool
  deriving DecidableEq

/-- `trade.get("tp_before_sl") is True`. -/
def Trade.reading (t : Trade) : TradeReading where
  entryTs := t.entryTs
  exitTs := t.exitTs
  side := t.side
  outcome := t.outcome
  netPct := t.netPct
  mfePct := t.mfePct
  maePct := t.maePct
  tpBeforeSl := t.tpBeforeSl = some true

/-- A record of `_mk_partial` has no key `tp_before_sl`. -/
def PartialTrade.reading (t : PartialTrade) : TradeReading where
  entryTs := t.entryTs
  exitTs := t.exitTs
  side := t.side
  outcome := t.outcome
  netPct := t.netPct
  mfePct := t.mfePct
  maePct := t.maePct
  tpBeforeSl := false

def ExitModeTrade.reading : ExitModeTrade → TradeReading
  | .single t => t.reading
  | .scaledOut t => t.reading

end ResearchLab.Simulation
