import Mathlib
import ResearchLab.Simulation.Contract

/-!
# Trades

Candles, signals and parameters, the path of a trade through its window, and the record that
`finalize_trade` builds of a decided exit.
-/
namespace ResearchLab.Simulation
open Foundation

structure Candle where
  ts : ℤ
  openPrice : ℚ
  high : ℚ
  low : ℚ
  close : ℚ
  deriving DecidableEq, Inhabited

structure Signal where
  idx : ℕ
  side : String
  reason : Option String := none
  regime : Option (List (String × String)) := none
  deriving DecidableEq

/-- The parameters of a simulation; `otherKeys` are the keys that only their presence counts of. -/
structure Params where
  exitMode : Option String := none
  holdBars : Option ℤ := none
  stopPct : Option ℚ := none
  takePct : Option ℚ := none
  otherKeys : List String := []

inductive Outcome
  | timeExit | stop | take | trail | partialBe
  deriving DecidableEq

/-- A decided exit: price, outcome and bar. -/
structure Exit where
  price : ℚ
  outcome : Outcome
  idx : ℕ
  deriving DecidableEq

/-- The candle of a bar; the simulators only ask for bars of the list. -/
def barAt (candles : List Candle) (j : ℕ) : Candle := candles.getD j default

/-- The bars `first, .., last`. -/
def barsBetween (candles : List Candle) (first last : ℕ) : List Candle :=
  (candles.drop first).take (last + 1 - first)

/-! ## The path of a trade -/

/-- The highest and the lowest price seen so far with their offsets. -/
structure PathExtremes where
  hi : Option (ℚ × ℕ) := none
  lo : Option (ℚ × ℕ) := none

def PathExtremes.see (p : PathExtremes) (high low : ℚ) (off : ℕ) : PathExtremes where
  hi := match p.hi with
    | none => some (high, off)
    | some (m, o) => if m < high then some (high, off) else some (m, o)
  lo := match p.lo with
    | none => some (low, off)
    | some (m, o) => if low < m then some (low, off) else some (m, o)

/-- `for off, j in enumerate(range(...))`. -/
def seeBars (p : PathExtremes) (bars : List Candle) : PathExtremes :=
  (bars.zipIdx).foldl (fun p b => p.see b.1.high b.1.low b.2) p

structure PathStats where
  mfePct : ℚ
  maePct : ℚ
  mfeOffset : ℕ
  maeOffset : ℕ
  deriving DecidableEq

/-- The prices known of the exit bar of a trade that leaves inside it. -/
def knownPrices (entryIdx exitIdx : ℕ) (entry exitPrice : ℚ) : ℚ × ℚ :=
  if exitIdx = entryIdx then (max entry exitPrice, min entry exitPrice)
  else (exitPrice, exitPrice)

def tradePath (candles : List Candle) (entryIdx : ℕ) (exit : Exit) (entry : ℚ)
    (side : String) : PathStats :=
  let p :=
    if exit.outcome = .timeExit then seeBars {} (barsBetween candles entryIdx exit.idx)
    else
      let known := knownPrices entryIdx exit.idx entry exit.price
      (seeBars {} ((candles.drop entryIdx).take (exit.idx - entryIdx))).see known.1 known.2
        (exit.idx - entryIdx)
  let hi := p.hi.getD (entry, 0)
  let lo := p.lo.getD (entry, 0)
  let up := (hi.1 - entry) / entry * 100
  let down := (entry - lo.1) / entry * 100
  if side = "long" then ⟨max 0 up, max 0 down, hi.2, lo.2⟩
  else ⟨max 0 down, max 0 up, lo.2, hi.2⟩

def pathObservation (outcome : Outcome) : String :=
  if outcome = .timeExit then "full_ohlc_through_close" else "exit_bar_censored_to_exit_price"

def pathQuality (mfePct capture : ℚ) (adverseBeforeFavorable : Bool) : String :=
  if mfePct ≤ 0 then "no_move"
  else if 7 / 10 ≤ capture then "clean_capture"
  else if capture < 3 / 10 then "gave_back"
  else if adverseBeforeFavorable then "heat_first" else "partial"

/-! ## The record of a trade -/

/-- The fields that describe the exit and the path. -/
structure TradeCore where
  entryTs : ℤ
  exitTs : ℤ
  side : String
  entry : ℚ
  exit : ℚ
  grossPct : Option ℚ := none
  netPct : ℚ
  outcome : Outcome
  reason : Option String
  regime : List (String × String)
  mfePct : ℚ
  maePct : ℚ
  captureOfMfe : ℚ
  barsHeld : ℕ
  timeToMfe : ℕ
  timeToMae : ℕ
  tpBeforeSl : Option Bool
  barsToTp : Option ℕ
  barsToSl : Option ℕ
  adverseBeforeFavorable : Bool
  pathQuality : String
  pathObservation : String
  partialExitFraction : Option ℚ := none
  partialLegPrices : Option (List ℚ) := none
  deriving DecidableEq

structure Trade extends TradeCore where
  simulatorManifest : Manifest
  simulatorModelId : String
  simulatorEvidenceTier : String
  unsupportedSimulatorDimensions : List String
  costLedger : CostLedger
  quantityLedger : QuantityLedger
  fillReconciliation : Option QuantityReconciliation := none
  deriving DecidableEq

def direction (side : String) : ℚ := if side = "long" then 1 else -1

/-- The common part of `finalize_trade` and `_partial_dynamic_trade`: the description of a trade
that gains `retPct` before costs. -/
def describeTrade (candles : List Candle) (idx : ℕ) (side : String) (entry : ℚ) (exit : Exit)
    (sig : Signal) (retPct costPct : ℚ) : TradeCore :=
  let path := tradePath candles idx exit entry side
  let capture := if 0 < path.mfePct then roundTo 4 (retPct / path.mfePct) else 0
  let held := exit.idx - idx
  let adverseFirst := decide (path.maeOffset < path.mfeOffset)
  { entryTs := (barAt candles idx).ts
    exitTs := (barAt candles exit.idx).ts
    side
    entry := roundTo 10 entry
    exit := roundTo 10 exit.price
    netPct := roundTo 4 (retPct - costPct * 100)
    outcome := exit.outcome
    reason := sig.reason
    regime := sig.regime.getD []
    mfePct := roundTo 4 path.mfePct
    maePct := roundTo 4 path.maePct
    captureOfMfe := capture
    barsHeld := held
    timeToMfe := path.mfeOffset
    timeToMae := path.maeOffset
    tpBeforeSl :=
      match exit.outcome with
      | .take => some true
      | .stop => some false
      | _ => none
    barsToTp := if exit.outcome = .take then some held else none
    barsToSl := if exit.outcome = .stop then some held else none
    adverseBeforeFavorable := adverseFirst
    pathQuality := pathQuality path.mfePct capture adverseFirst
    pathObservation := pathObservation exit.outcome }

/-- The return of a trade in percent before costs. -/
def returnPct (side : String) (entry price : ℚ) : ℚ := direction side * (price / entry - 1) * 100

def finalizeTrade (sha256 : String → String) (candles : List Candle) (idx : ℕ) (side : String)
    (entry : ℚ) (exit : Exit) (sig : Signal) (costPct : ℚ) (simulatorManifest : Option Manifest)
    (costLedger : Option CostLedger) : Except String Trade := do
  let manifest := simulatorManifest.getD (legacyFixtureManifest sha256)
  let ledger ← match costLedger with
    | some ledger => .ok ledger
    | none => buildLegacyCombinedCostLedger costPct
  if 1 / 10 ^ 9 < |ledger.totalPct - costPct * 100| then
    throw "trade cost ledger does not reconcile to deducted cost"
  let quantity ← buildTradeQuantityLedger 1 [1]
  return {
    toTradeCore :=
      describeTrade candles idx side entry exit sig (returnPct side entry exit.price) costPct
    simulatorManifest := manifest
    simulatorModelId := manifest.simulatorModelId
    simulatorEvidenceTier := manifest.evidenceTier
    unsupportedSimulatorDimensions := manifest.unsupportedDimensions
    costLedger := ledger
    quantityLedger := quantity }

end ResearchLab.Simulation
