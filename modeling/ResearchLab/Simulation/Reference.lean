import Mathlib
import ResearchLab.Simulation.Exits

/-!
# The reference simulator

`reference_simulator`, written without the production simulator: it tests the percentages and
never the truth value of a level.
-/
namespace ResearchLab.Simulation
open Foundation

structure ReferenceRow where
  entryTs : ℤ
  exitTs : ℤ
  entryIdx : ℕ
  exitIdx : ℕ
  side : String
  entry : ℚ
  exit : ℚ
  outcome : Outcome
  grossPct : ℚ
  netPct : ℚ
  simulatorManifest : Manifest
  simulatorModelId : String
  simulatorEvidenceTier : String
  unsupportedSimulatorDimensions : List String
  costLedger : CostLedger
  quantityLedger : QuantityLedger

def referenceScanner (long : Bool) (entry stopPct takePct : ℚ) :
    Scanner Unit Candle (ℚ × Outcome) where
  exit? _ bar :=
    let stop := entry * if long then 1 - stopPct / 100 else 1 + stopPct / 100
    let take := entry * if long then 1 + takePct / 100 else 1 - takePct / 100
    if 0 < stopPct ∧ stopTouched long bar stop then some (stop, .stop)
    else if 0 < takePct ∧ takeTouched long bar take then some (take, .take)
    else none
  next _ _ := ()

def referenceExit (candles : List Candle) (idx cap : ℕ) (entry : ℚ) (side : String)
    (stopPct takePct : ℚ) : Exit :=
  exitOf candles idx cap
    ((referenceScanner (isLong side) entry stopPct takePct).run () (barsBetween candles idx cap))

/-- What the loop appends for an exit. -/
def exitRow (sha256 : String → String) (candles : List Candle) (costs : Costs) (sig : Signal)
    (entry : ℚ) (exit : Exit) (quantity : QuantityLedger) : ReferenceRow :=
  let gross := if isLong sig.side then exit.price / entry - 1 else 1 - exit.price / entry
  { entryTs := (barAt candles sig.idx).ts
    exitTs := (barAt candles exit.idx).ts
    entryIdx := sig.idx
    exitIdx := exit.idx
    side := sig.side
    entry
    exit := exit.price
    outcome := exit.outcome
    grossPct := roundTo 6 (gross * 100)
    netPct := roundTo 6 ((gross - costs.pct) * 100)
    simulatorManifest := legacyFixtureManifest sha256
    simulatorModelId := (legacyFixtureManifest sha256).simulatorModelId
    simulatorEvidenceTier := (legacyFixtureManifest sha256).evidenceTier
    unsupportedSimulatorDimensions := (legacyFixtureManifest sha256).unsupportedDimensions
    costLedger := costs.ledger
    quantityLedger := quantity }

/-- One round of the loop; none where it continues. -/
def referenceRow (sha256 : String → String) (candles : List Candle) (params : Params)
    (costs : Costs) (sig : Signal) : Except String (Option ReferenceRow) :=
  let endIdx := min ((sig.idx : ℤ) + params.holdBars.getD 5) ((candles.length : ℤ) - 1)
  if candles.length ≤ sig.idx ∨ endIdx ≤ sig.idx then .ok none
  else
    let entry := (barAt candles sig.idx).openPrice
    if entry ≤ 0 then .ok none
    else do
      let exit := referenceExit candles sig.idx endIdx.toNat entry sig.side
        (params.stopPct.getD 0) (params.takePct.getD 0)
      let quantity ← buildTradeQuantityLedger 1 [1]
      return some (exitRow sha256 candles costs sig entry exit quantity)

def simulateReferenceFixed (sha256 : String → String) (candles : List Candle)
    (signals : List Signal) (params : Params) (costs : Costs) : Except String (List ReferenceRow) :=
  tradesOf (referenceRow sha256 candles params costs) signals

end ResearchLab.Simulation
