import ResearchLab.Foundation.Checks
import ResearchLab.Foundation.Scanner
import ResearchLab.Foundation.Sorting
import ResearchLab.Foundation.Table
import ResearchLab.PaperLane.Signal
import ResearchLab.Simulation.Trades

/-!
# The lifecycle of a watched signal

`observe` advances a signal over the candles behind its cursor. Its accumulators live in the
outcome of the signal between two calls, in rounded form. Prices are exact rationals.
-/
namespace ResearchLab.PaperLane
open Foundation Foundation.IntOrder
open Simulation (Candle Fill buildCostLedger buildTradeQuantityLedger reconcilePartialFills)

def armWindowBars : ℤ := 6

def lifecycleSchema : String := "PaperSignalLifecycle.v2"

/-- `CostAssumptions()`. -/
def feesBpsRoundTrip : ℚ := 7

def slippageBpsRoundTrip : ℚ := 3

def totalCostPct : ℚ := (feesBpsRoundTrip + slippageBpsRoundTrip) / 100

def grossPct (entry exitPrice : ℚ) : Side → ℚ
  | side =>
      if entry ≤ 0 then 0
      else if side = .long then roundTo 6 ((exitPrice - entry) / entry * 100)
      else roundTo 6 ((entry - exitPrice) / entry * 100)

def netPct (grossValuePct : ℚ) : ℚ := roundTo 6 (grossValuePct - totalCostPct)

/-! ## The cursor -/

/-- The candles behind the boundary, one for each timestamp, in their order. -/
def orderedPostBoundary (sig : PaperActionSignal) (candles : List Candle) : List Candle :=
  let unique : Table ℤ Candle := (candles.filter fun row => sig.boundaryTs < row.ts).foldl
    (fun t row => t.upsert row.ts row fun _ => row) .empty
  (sortOn id unique.keys).filterMap unique.row

structure Progress where
  cursor : ℤ
  observed : ℤ
  barsHeld : ℤ
  barsWaited : ℤ

def legacyProgress (sig : PaperActionSignal) (outcome : SignalOutcome) (rows : List Candle) :
    Progress :=
  let hasCursor := outcome.lastObservedBarTs.isSome
  let storedObserved := max 0 (orElse outcome.observedBarsTotal (orElse outcome.newBars 0))
  let observed := if hasCursor then storedObserved else min storedObserved rows.length
  let cursor := orElse outcome.lastObservedBarTs sig.boundaryTs
  let cursor :=
    if ¬ hasCursor ∧ observed ≠ 0 then
      orElse (rows[(observed - 1).toNat]?.map Candle.ts) sig.boundaryTs
    else cursor
  let openIndex := max 0 (orElse outcome.openIndex 0)
  let barsHeld :=
    if sig.status = .openedPaper then
      match outcome.barsHeld with
      | some held => max 0 held
      | none => max 0 (observed - openIndex - 1)
    else 0
  let barsWaited :=
    match outcome.barsWaited with
    | some waited => max 0 waited
    | none => min observed armWindowBars
  { cursor, observed, barsHeld, barsWaited }

/-! ## The entry -/

def entryTriggerOf (sig : PaperActionSignal) : String :=
  let trigger := sig.entryTrigger.getD ""
  if trigger = "" then "limit_pullback" else trigger

def entryFilled (sig : PaperActionSignal) (high low : ℚ) : Bool :=
  if entryTriggerOf sig = "breakout_stop" then
    if sig.side = .long then sig.entryZone.2 ≤ high else low ≤ sig.entryZone.1
  else if sig.side = .long then low ≤ sig.entryZone.1 else sig.entryZone.2 ≤ high

def entryPrice (sig : PaperActionSignal) : ℚ :=
  if entryTriggerOf sig = "breakout_stop" then
    if sig.side = .long then sig.entryZone.2 else sig.entryZone.1
  else if sig.side = .long then sig.entryZone.1 else sig.entryZone.2

/-! ## The loop over fresh candles -/

/-- The local variables of the loop. -/
structure LaneVars where
  opened : Bool
  entryPx : ℚ
  effStop : ℚ
  partialDone : Bool
  beDone : Bool
  banked : ℚ
  mfe : ℚ
  mae : ℚ
  favWait : ℚ
  barsHeld : ℤ
  barsWaited : ℤ
  observed : ℤ
  processed : ℤ
  state : SignalOutcome

/-- The variables as the stored outcome gives them. -/
def startVars (sig : PaperActionSignal) (progress : Progress) : LaneVars where
  opened := sig.status = .openedPaper
  entryPx := orElse sig.outcome.entry 0
  effStop := orElse sig.outcome.effStop sig.stopLoss
  partialDone := sig.outcome.partialDone.getD false
  beDone := sig.outcome.beDone.getD false
  banked := orElse sig.outcome.bankedPct 0
  mfe := orElse sig.outcome.mfePct 0
  mae := orElse sig.outcome.maePct 0
  favWait := orElse sig.outcome.favWaitPct 0
  barsHeld := progress.barsHeld
  barsWaited := progress.barsWaited
  observed := progress.observed
  processed := 0
  state := sig.outcome

def pendingOutcome (state : SignalOutcome) (opened : Bool) : SignalOutcome :=
  { state with
    openIndex := none
    lifecycleSchema := some lifecycleSchema
    result := some (if opened then .pendingOpen else .pendingArm) }

def expireNoEntry (sig : PaperActionSignal) (v : LaneVars) : PaperActionSignal :=
  { sig with
    status := .expired
    outcome :=
      { v.state with
        openIndex := none
        entry := none
        effStop := none
        partialDone := none
        beDone := none
        bankedPct := none
        mfePct := none
        maePct := none
        barsHeld := none
        openedAtBarTs := none
        lifecycleSchema := some lifecycleSchema
        result := some .expiredNoEntry
        barsWaited := some v.barsWaited
        favWaitPct := some (roundTo 3 v.favWait)
        ranAway := some (decide ((if sig.riskPct = 0 then 99 else sig.riskPct) ≤ v.favWait)) } }

/-- The price of the first level of the plan; a card that passed the gate has one. -/
def firstTp (sig : PaperActionSignal) : ℚ := (sig.takeProfitPlan.head?.map TakeProfit.price).getD 0

def finalTp (sig : PaperActionSignal) : ℚ :=
  (sig.takeProfitPlan.getLast?.map TakeProfit.price).getD 0

/-- `_close`. -/
def close (sig : PaperActionSignal) (v : LaneVars) (kind : LaneResult) (exitPx : ℚ) :
    Except String PaperActionSignal := do
  let leg2 := grossPct v.entryPx exitPx sig.side
  let gross := if v.partialDone then v.banked + 1 / 2 * leg2 else leg2
  let net := netPct gross
  let quantities := if v.partialDone then [1 / 2, 1 / 2] else [1]
  let prices := if v.partialDone then [firstTp sig, exitPx] else [exitPx]
  let reconciliation ← reconcilePartialFills 1
    ((quantities.zip prices).map fun leg => ⟨leg.1, leg.2, totalCostPct⟩) v.entryPx sig.side.text
  if 1 / 10 ^ 3 < |reconciliation.netReturnPct.getD 0 - net| then
    throw "paper lane fill reconciliation does not match outcome"
  let quantityLedger ← buildTradeQuantityLedger 1 quantities
  return { sig with
    status := .closedPaper
    outcome :=
      { v.state with
        openIndex := none
        lifecycleSchema := some lifecycleSchema
        result := some kind
        entry := some (roundTo 8 v.entryPx)
        exit := some (roundTo 8 exitPx)
        grossPct := some (roundTo 3 gross)
        netPct := some (roundTo 3 net)
        feesBpsRoundTrip := some feesBpsRoundTrip
        slippageBpsRoundTrip := some slippageBpsRoundTrip
        costLedger := some (buildCostLedger
          { feesBps := feesBpsRoundTrip, slippageBps := slippageBpsRoundTrip })
        quantityLedger := some quantityLedger
        fillReconciliation := some reconciliation
        bankedPct := some (roundTo 4 v.banked)
        partialDone := some v.partialDone
        mfePct := some (roundTo 3 v.mfe)
        maePct := some (roundTo 3 v.mae)
        barsHeld := some v.barsHeld
        reachedTp1 := some (v.partialDone || kind = .take) } }

/-- What a candle does to the loop: it returns, or the loop goes on. -/
abbrev BarStep := Except (Except String PaperActionSignal) LaneVars

/-- A candle behind which the signal still waits: the favourable excursion and the count. -/
def seeWait (sig : PaperActionSignal) (v : LaneVars) (c : Candle) : LaneVars :=
  let lo := sig.entryZone.1
  let hi := sig.entryZone.2
  let favWait := max v.favWait
    ((if sig.side = .long then (c.high - hi) / hi else (lo - c.low) / lo) * 100)
  { v with
    favWait
    barsWaited := v.barsWaited + 1
    state := { v.state with
      barsWaited := some (v.barsWaited + 1)
      favWaitPct := some (roundTo 3 favWait) } }

/-- The entry fills at a candle. -/
def fillEntry (sig : PaperActionSignal) (v : LaneVars) (c : Candle) : LaneVars :=
  { v with
    entryPx := entryPrice sig
    opened := true
    effStop := sig.stopLoss
    state := { v.state with
      entry := some (entryPrice sig)
      openedAtBarTs := some c.ts
      effStop := some sig.stopLoss } }

/-- The branch of a signal that waits for its entry. -/
def waitBar (sig : PaperActionSignal) (v : LaneVars) (c : Candle) : BarStep :=
  if armWindowBars ≤ v.barsWaited then .error (.ok (expireNoEntry sig v))
  else
    let v := seeWait sig v c
    if entryFilled sig c.high c.low then .ok (fillEntry sig v c)
    else if armWindowBars ≤ v.barsWaited then .error (.ok (expireNoEntry sig v))
    else .ok v

def stopHit (sig : PaperActionSignal) (v : LaneVars) (c : Candle) : Bool :=
  if sig.side = .long then c.low ≤ v.effStop else v.effStop ≤ c.high

def stopKind (v : LaneVars) : LaneResult :=
  if v.beDone && !v.partialDone then .simpleBe else if v.partialDone then .partialBe else .stop

/-- The candle reached a price on the favourable side. -/
def reached (sig : PaperActionSignal) (c : Candle) (price : ℚ) : Bool :=
  if sig.side = .long then price ≤ c.high else c.low ≤ price

/-- The stop moves to the entry once half the risk is gained. -/
def moveToBreakEven (sig : PaperActionSignal) (v : LaneVars) (c : Candle) : LaneVars :=
  let riskDist := |v.entryPx - sig.stopLoss|
  if ¬ v.beDone ∧ sig.exitMode = "partial_be" ∧ 0 < riskDist then
    let bePrice :=
      if sig.side = .long then v.entryPx + 1 / 2 * riskDist else v.entryPx - 1 / 2 * riskDist
    if reached sig c bePrice then { v with effStop := v.entryPx, beDone := true } else v
  else v

/-- Half the position is banked at the first level. -/
def bankPartial (sig : PaperActionSignal) (v : LaneVars) (c : Candle) : LaneVars :=
  let tp1 := firstTp sig
  let doPartial := sig.exitMode = "partial_be" ∧ 1 < sig.takeProfitPlan.length
  if doPartial ∧ ¬ v.partialDone ∧ reached sig c tp1 then
    let leg := (if sig.side = .long then tp1 - v.entryPx else v.entryPx - tp1) / v.entryPx * 100
    { v with banked := roundTo 4 (1 / 2 * leg), partialDone := true, effStop := v.entryPx }
  else v

/-- A candle of an open position: the count and the excursions. -/
def seeHeld (sig : PaperActionSignal) (v : LaneVars) (c : Candle) : LaneVars :=
  let mfe := max v.mfe
    ((if sig.side = .long then c.high - v.entryPx else v.entryPx - c.low) / v.entryPx * 100)
  let mae := max v.mae
    ((if sig.side = .long then v.entryPx - c.low else c.high - v.entryPx) / v.entryPx * 100)
  { v with
    barsHeld := v.barsHeld + 1
    mfe
    mae
    state := { v.state with
      barsHeld := some (v.barsHeld + 1)
      mfePct := some (roundTo 3 mfe)
      maePct := some (roundTo 3 mae) } }

def recordStops (v : LaneVars) : LaneVars :=
  { v with
    state := { v.state with
      effStop := some v.effStop
      beDone := some v.beDone
      partialDone := some v.partialDone
      bankedPct := some (roundTo 4 v.banked) } }

/-- The branch of an open position. -/
def heldBar (sig : PaperActionSignal) (v : LaneVars) (c : Candle) : BarStep :=
  let v := seeHeld sig v c
  if stopHit sig v c then .error (close sig v (stopKind v) v.effStop)
  else
    let v := recordStops (bankPartial sig (moveToBreakEven sig v c) c)
    if reached sig c (finalTp sig) then .error (close sig v .take (finalTp sig))
    else if sig.maxHoldBars ≤ v.barsHeld then .error (close sig v .timeout c.close)
    else .ok v

/-- The cursor moves to a candle. -/
def moveCursor (v : LaneVars) (c : Candle) : LaneVars :=
  { v with
    observed := v.observed + 1
    processed := v.processed + 1
    state := { v.state with
      lastObservedBarTs := some c.ts
      lastObservedClose := some c.close
      observedBarsTotal := some (v.observed + 1)
      freshBarsThisCycle := some (v.processed + 1) } }

/-- The body of the loop. -/
def observeBar (sig : PaperActionSignal) (v : LaneVars) (c : Candle) : BarStep :=
  let v := moveCursor v c
  if v.opened then heldBar sig v c else waitBar sig v c

/-- The loop: it returns at a candle, or goes on to the next. -/
def laneLoop (sig : PaperActionSignal) :
    Scanner LaneVars Candle (Except String PaperActionSignal) where
  exit? v c := match observeBar sig v c with
    | .error r => some r
    | .ok _ => none
  next v c := match observeBar sig v c with
    | .error _ => v
    | .ok w => w

/-- What the function leaves when no candle made it return. -/
def pendingSignal (sig : PaperActionSignal) (v : LaneVars) : PaperActionSignal :=
  let state := { v.state with
    barsWaited := some v.barsWaited
    favWaitPct := some (roundTo 3 v.favWait)
    freshBarsThisCycle := some v.processed }
  let state :=
    if v.opened then
      { state with
        entry := some v.entryPx
        effStop := some v.effStop
        partialDone := some v.partialDone
        beDone := some v.beDone
        bankedPct := some (roundTo 4 v.banked)
        mfePct := some (roundTo 3 v.mfe)
        maePct := some (roundTo 3 v.mae)
        barsHeld := some v.barsHeld }
    else state
  { sig with
    status := if v.opened then .openedPaper else sig.status
    outcome := pendingOutcome state v.opened }

def observe (sig : PaperActionSignal) (candles : List Candle) : Except String PaperActionSignal :=
  if sig.status ≠ .armed ∧ sig.status ≠ .openedPaper then .ok sig
  else
    let rows := orderedPostBoundary sig candles
    let progress := legacyProgress sig sig.outcome rows
    let fresh := rows.filter fun row => progress.cursor < row.ts
    if fresh = [] then
      let outcome := { sig.outcome with freshBarsThisCycle := some 0 }
      .ok { sig with outcome := pendingOutcome outcome (sig.status = .openedPaper) }
    else
      let start := startVars sig progress
      match (laneLoop sig).run start fresh with
      | some (_, r) => r
      | none => .ok (pendingSignal sig ((laneLoop sig).last start fresh))

/-- Calls one after another, each with its own candles. -/
def observeAll (sig : PaperActionSignal) (batches : List (List Candle)) :
    Except String PaperActionSignal := batches.foldlM observe sig

end ResearchLab.PaperLane
