import Mathlib
import ResearchLab.Foundation.JsonLoads
import ResearchLab.Foundation.Scanner
import ResearchLab.Simulation.Trades

/-!
# The simulators of the production path

`simulate_trades` with its exit modes. Each loop over the bars of a holding window is a
scanner: it leaves at a bar, or moves its stop and goes on.
-/
namespace ResearchLab.Simulation
open Foundation

/-- `_level`: the price `pct` percent above or below the entry. -/
def level (entry pct : ℚ) (up : Bool) : Option ℚ :=
  if pct ≤ 0 then none
  else some (if up then entry * (1 + pct / 100) else entry * (1 - pct / 100))

def stopTouched (long : Bool) (bar : Candle) (stop : ℚ) : Bool :=
  if long then decide (bar.low ≤ stop) else decide (stop ≤ bar.high)

def takeTouched (long : Bool) (bar : Candle) (take : ℚ) : Bool :=
  if long then decide (take ≤ bar.high) else decide (bar.low ≤ take)

def isLong (side : String) : Bool := decide (side = "long")

/-- The last bar of the holding window and the entry price, unless the signal is skipped. -/
def holdingWindow (candles : List Candle) (idx : ℕ) (holdBars : ℤ) : Option (ℕ × ℚ) :=
  let cap := min (idx + holdBars) ((candles.length : ℤ) - 1)
  let entry := (barAt candles idx).openPrice
  if candles.length ≤ idx ∨ cap ≤ idx then none
  else if entry ≤ 0 then none else some (cap.toNat, entry)

theorem holdingWindow_eq_some {candles : List Candle} {idx cap : ℕ} {holdBars : ℤ} {entry : ℚ}
    (h : holdingWindow candles idx holdBars = some (cap, entry)) :
    idx < cap ∧ cap < candles.length ∧ (cap : ℤ) ≤ idx + holdBars ∧ 0 < entry := by
  simp only [holdingWindow] at h
  split_ifs at h with hskip hentry
  obtain ⟨hcap, rfl⟩ : (min (idx + holdBars) ((candles.length : ℤ) - 1)).toNat = cap ∧ _ = entry := by
    simpa using h
  refine ⟨by omega, by omega, by omega, not_le.1 hentry⟩

theorem barsBetween_getElem? {candles : List Candle} {idx cap k : ℕ} (hcap : cap < candles.length)
    (hk : idx + k ≤ cap) : (barsBetween candles idx cap)[k]? = some (barAt candles (idx + k)) := by
  rw [barsBetween, List.getElem?_take_of_lt (by omega), List.getElem?_drop, barAt,
    List.getD_eq_getElem _ _ (by omega), List.getElem?_eq_getElem]

theorem length_barsBetween {candles : List Candle} {idx cap : ℕ} (hcap : cap < candles.length) :
    (barsBetween candles idx cap).length = cap + 1 - idx := by
  simp only [barsBetween, List.length_take, List.length_drop]
  omega

/-- The exit that a scan of the window found, or the close of its last bar. -/
def exitOf (candles : List Candle) (idx cap : ℕ) : Option (ℕ × ℚ × Outcome) → Exit
  | some (k, price, outcome) => ⟨price, outcome, idx + k⟩
  | none => ⟨(barAt candles cap).close, .timeExit, cap⟩

theorem exitOf_idx {candles : List Candle} {idx cap : ℕ} {r : Option (ℕ × ℚ × Outcome)}
    (h : idx < cap) : idx ≤ (exitOf candles idx cap r).idx := by
  cases r with
  | none => exact h.le
  | some r => exact Nat.le_add_right _ _

/-! ## The baseline -/

/-- A level of 0 is as good as none. -/
def truthy (l : Option ℚ) : Option ℚ := l.filter (· ≠ 0)

def baselineScanner (long : Bool) (stop take : Option ℚ) : Scanner Unit Candle (ℚ × Outcome) where
  exit? _ bar :=
    match (truthy stop).filter (stopTouched long bar) with
    | some price => some (price, .stop)
    | none => ((truthy take).filter (takeTouched long bar)).map fun price => (price, .take)
  next _ _ := ()

def baselineExit (candles : List Candle) (idx cap : ℕ) (entry : ℚ) (side : String)
    (stopPct takePct : ℚ) : Exit :=
  let long := isLong side
  exitOf candles idx cap ((baselineScanner long (level entry stopPct !long)
    (level entry takePct long)).run () (barsBetween candles idx cap))

/-! ## The dynamic modes -/

inductive ExitRule
  | fixed (takePct : Option ℚ)
  | trailing (trailPct : ℚ)
  | breakEven (beTriggerPct : ℚ)
  | timeDecay
  | partialTake (tp1Pct tp2Pct : ℚ)
  deriving DecidableEq

structure DynamicMode where
  rule : ExitRule
  holdBars : ℤ

/-- `float(params.get(key) or 0.0) or default`. -/
def truthyOr (value : Option ℚ) (fallback : ℚ) : ℚ :=
  if value.getD 0 = 0 then fallback else value.getD 0

def dynamicModeParams (params : Params) (exitMode : String) : DynamicMode :=
  let stop := truthyOr params.stopPct 1
  let take := truthyOr params.takePct (stop * 2)
  let hold := if params.holdBars.getD 0 = 0 then 5 else params.holdBars.getD 0
  if exitMode = "early_tp" then ⟨.fixed (some (roundTo 6 (take * (1 / 2)))), hold⟩
  else if exitMode = "trailing" then ⟨.trailing (roundTo 6 stop), hold⟩
  else if exitMode = "trailing_tight" then ⟨.trailing (roundTo 6 (stop * (1 / 2))), hold⟩
  else if exitMode = "break_even" then ⟨.breakEven (roundTo 6 stop), hold⟩
  else if exitMode = "time_decay" then ⟨.timeDecay, hold⟩
  else if exitMode = "partial_tp" ∨ exitMode = "partial_be" then
    ⟨.partialTake (roundTo 6 (take * (1 / 2))) (roundTo 6 take), hold⟩
  else if exitMode = "hold_long" then ⟨.fixed none, max 1 (hold * 2)⟩
  else ⟨.fixed none, hold⟩

/-- The stop in force, the best price so far, and the number of bars seen. -/
structure ScanState where
  stop : Option ℚ
  water : ℚ
  offset : ℕ := 0
  deriving DecidableEq

/-- `initial_stop or trail`. -/
def orTrail (initialStop : Option ℚ) (trail : ℚ) : ℚ := (truthy initialStop).getD trail

/-- The stop after a bar. -/
def moveStop (rule : ExitRule) (long : Bool) (entry stopPct : ℚ) (span : ℕ)
    (initialStop : Option ℚ) (water : ℚ) (st : ScanState) : Option ℚ :=
  match rule with
  | .trailing trailPct =>
      match level water trailPct !long with
      | none => st.stop
      | some trail =>
          some (if long then max (orTrail initialStop trail) trail
            else min (orTrail initialStop trail) trail)
  | .breakEven beTriggerPct =>
      match level entry beTriggerPct long with
      | none => st.stop
      | some trigger =>
          if if long then trigger ≤ water else water ≤ trigger then some entry else st.stop
  | .timeDecay => level entry (stopPct * max 0 (1 - (st.offset : ℚ) / span)) !long
  | _ => st.stop

def stopOutcome : ExitRule → Outcome
  | .trailing _ => .trail
  | _ => .stop

def dynamicScanner (rule : ExitRule) (long : Bool) (entry stopPct : ℚ) (span : ℕ)
    (take : Option ℚ) : Scanner ScanState Candle (ℚ × Outcome) where
  exit? st bar :=
    match st.stop.filter (stopTouched long bar) with
    | some price => some (price, stopOutcome rule)
    | none => (take.filter (takeTouched long bar)).map fun price => (price, .take)
  next st bar :=
    let water := if long then max st.water bar.high else min st.water bar.low
    { stop := moveStop rule long entry stopPct span (level entry stopPct !long) water st
      water
      offset := st.offset + 1 }

/-- The take-profit percentage of a scan: that of the mode, or that of the parameters. -/
def scanTakePct (rule : ExitRule) (takePct : ℚ) : ℚ :=
  match rule with
  | .fixed (some pct) => pct
  | _ => takePct

def scanDynamicExit (candles : List Candle) (idx cap : ℕ) (entry : ℚ) (side : String)
    (stopPct takePct : ℚ) (rule : ExitRule) : Exit :=
  let long := isLong side
  exitOf candles idx cap ((dynamicScanner rule long entry stopPct (max 1 (cap - idx))
    (level entry (scanTakePct rule takePct) long)).run
      { stop := level entry stopPct !long, water := entry } (barsBetween candles idx cap))

/-! ## Partial exits -/

/-- Whether the first half has been sold, and the stop in force. -/
structure PartialState where
  filledFirst : Bool
  stop : Option ℚ
  deriving DecidableEq

def partialScanner (long : Bool) (entry : ℚ) (tp1 tp2 : Option ℚ) :
    Scanner PartialState Candle (ℚ × Outcome) where
  exit? st bar :=
    if !st.filledFirst then
      (st.stop.filter (stopTouched long bar)).map fun price => (price, .stop)
    else
      match tp2.filter (takeTouched long bar) with
      | some price => some (price, .take)
      | none => (st.stop.filter (stopTouched long bar)).map fun price => (price, .partialBe)
  next st bar :=
    if !st.filledFirst ∧ (tp1.filter (takeTouched long bar)).isSome then ⟨true, some entry⟩
    else st

/-- `_partial_dynamic_trade`. -/
def partialDynamicTrade (candles : List Candle) (idx cap : ℕ) (entry : ℚ) (side : String)
    (stopPct tp1Pct tp2Pct : ℚ) (sig : Signal) (costPct : ℚ) : TradeCore :=
  let long := isLong side
  let tp1 := level entry tp1Pct long
  let S := partialScanner long entry tp1 (level entry tp2Pct long)
  let start : PartialState := ⟨false, level entry stopPct !long⟩
  let bars := barsBetween candles idx cap
  let exit := exitOf candles idx cap (S.run start bars)
  let filled := (S.last start bars).filledFirst
  let firstExit := if filled then tp1.getD entry else entry
  let fraction : ℚ := if filled then 1 / 2 else 0
  let firstRet := if filled then returnPct side entry firstExit else 0
  let retPct := fraction * firstRet + (1 - fraction) * returnPct side entry exit.price
  { describeTrade candles idx side entry exit sig retPct costPct with
    grossPct := some (roundTo 4 retPct)
    partialExitFraction := some fraction
    partialLegPrices := some (if filled then [firstExit, exit.price] else [exit.price]) }

/-- What `simulate_dynamic_exit_trades` adds to a partial trade. -/
def bindPartialTrade (sha256 : String → String) (trade : TradeCore) (entry : ℚ)
    (side : String) (feesBps slippageBps costPct : ℚ) : Except String Trade := do
  let manifest := legacyFixtureManifest sha256
  let fraction := trade.partialExitFraction.getD 0
  let quantities := if fraction = 0 then [1] else [fraction, 1 - fraction]
  let reconciliation ← reconcilePartialFills 1
    ((quantities.zip (trade.partialLegPrices.getD [])).map fun leg =>
      ⟨leg.1, leg.2, costPct * 100⟩) entry side
  if 1 / 10 ^ 3 < |reconciliation.netReturnPct.getD 0 - trade.netPct| then
    throw "partial fill reconciliation does not match trade return"
  let quantity ← buildTradeQuantityLedger 1 (if 0 < fraction then [fraction, 1 - fraction] else [1])
  return {
    toTradeCore := trade
    simulatorManifest := manifest
    simulatorModelId := manifest.simulatorModelId
    simulatorEvidenceTier := manifest.evidenceTier
    unsupportedSimulatorDimensions := manifest.unsupportedDimensions
    costLedger := buildCostLedger { feesBps, slippageBps }
    quantityLedger := quantity
    fillReconciliation := some reconciliation }

/-! ## `simulate_trades` -/

/-- A loop over the signals: one is skipped, gives its trade, or raises. -/
def tradesOf {α : Type} (trade : Signal → Except String (Option α)) :
    List Signal → Except String (List α)
  | [] => .ok []
  | sig :: rest =>
      match trade sig with
      | .error e => .error e
      | .ok none => tradesOf trade rest
      | .ok (some t) => (tradesOf trade rest).map (t :: ·)

/-- The fees and the slippage of a run. -/
structure Costs where
  feesBps : ℚ
  slippageBps : ℚ

def Costs.pct (c : Costs) : ℚ := (c.feesBps + c.slippageBps) / 10000

def Costs.ledger (c : Costs) : CostLedger :=
  buildCostLedger { feesBps := c.feesBps, slippageBps := c.slippageBps }

/-- The ledger of legs that close one unit. -/
def unitQuantityLedger (legs : List ℚ) : QuantityLedger where
  schema := "TradeQuantityLedger.v2"
  basis := "normalized_unit_fixture_not_market_size"
  entryQuantity := 1
  closedLegs := legs
  closedQuantity := 1
  remainingQuantity := 0
  availabilityStatus := "unmodeled"

/-- The trade that `finalize_trade` builds under the manifest of the fixture. -/
def finalTrade (sha256 : String → String) (candles : List Candle) (idx : ℕ) (side : String)
    (entry : ℚ) (exit : Exit) (sig : Signal) (costs : Costs) : Trade where
  toTradeCore := describeTrade candles idx side entry exit sig (returnPct side entry exit.price)
    costs.pct
  simulatorManifest := legacyFixtureManifest sha256
  simulatorModelId := (legacyFixtureManifest sha256).simulatorModelId
  simulatorEvidenceTier := (legacyFixtureManifest sha256).evidenceTier
  unsupportedSimulatorDimensions := (legacyFixtureManifest sha256).unsupportedDimensions
  costLedger := costs.ledger
  quantityLedger := unitQuantityLedger [1]

/-- The ledger of the costs gives their total up to the roundings. -/
theorem Costs.abs_totalPct_sub_le (c : Costs) : |c.ledger.totalPct - c.pct * 100| ≤ 3 / 10 ^ 10 := by
  have h := Simulation.abs_totalPct_sub_le
    { feesBps := c.feesBps, slippageBps := c.slippageBps }
  have hpct : c.pct * 100 = c.feesBps / 100 + 0 / 100 + c.slippageBps / 100 + 0 / 100 + 0 := by
    simp only [Costs.pct]
    ring
  rw [Costs.ledger, hpct]
  exact h

theorem buildTradeQuantityLedger_unit {legs : List ℚ} (hpos : ∀ leg ∈ legs, 0 < leg)
    (hsum : legs.sum = 1) : buildTradeQuantityLedger 1 legs = .ok (unitQuantityLedger legs) := by
  have hzero : roundTo 12 (1 - 1) = 0 := by decide +kernel
  have hlegs : ¬ ((1 : ℚ) ≤ 0 ∨ ∃ leg ∈ legs, leg ≤ 0) := by
    rintro (h | ⟨leg, hleg, h⟩)
    · linarith
    · exact absurd (hpos leg hleg) (not_lt.2 h)
  simp only [buildTradeQuantityLedger, if_neg hlegs, hsum]
  rw [if_neg (by norm_num), hzero]
  rfl

theorem buildTradeQuantityLedger_one :
    buildTradeQuantityLedger 1 [1] = .ok (unitQuantityLedger [1]) :=
  buildTradeQuantityLedger_unit (by simp) (by simp)

theorem finalizeTrade_eq (sha256 : String → String) (candles : List Candle) (idx : ℕ)
    (side : String) (entry : ℚ) (exit : Exit) (sig : Signal) (costs : Costs) :
    finalizeTrade sha256 candles idx side entry exit sig costs.pct
        (some (legacyFixtureManifest sha256)) (some costs.ledger) =
      .ok (finalTrade sha256 candles idx side entry exit sig costs) := by
  have htotal : ¬ 1 / 10 ^ 9 < |costs.ledger.totalPct - costs.pct * 100| := by
    have := costs.abs_totalPct_sub_le
    refine not_lt.2 (this.trans ?_)
    norm_num
  simp only [finalizeTrade, buildTradeQuantityLedger_one, bind, Except.bind, if_neg htotal]
  rfl

/-- `require_complete_horizon` drops a time exit whose window is cut by the end of the data. -/
def cutOff (candles : List Candle) (idx : ℕ) (holdBars : ℤ) (outcome : Outcome) : Bool :=
  decide (outcome = .timeExit ∧ (candles.length : ℤ) ≤ idx + holdBars)

def baselineTrade (sha256 : String → String) (candles : List Candle) (holdBars : ℤ)
    (stopPct takePct : ℚ) (costs : Costs) (requireCompleteHorizon : Bool) (sig : Signal) :
    Except String (Option Trade) :=
  match holdingWindow candles sig.idx holdBars with
  | none => .ok none
  | some (cap, entry) =>
      let exit := baselineExit candles sig.idx cap entry sig.side stopPct takePct
      if requireCompleteHorizon ∧ cutOff candles sig.idx holdBars exit.outcome then .ok none
      else (finalizeTrade sha256 candles sig.idx sig.side entry exit sig costs.pct
        (some (legacyFixtureManifest sha256)) (some costs.ledger)).map some

def dynamicTrade (sha256 : String → String) (candles : List Candle) (mode : DynamicMode)
    (stopPct takePct : ℚ) (costs : Costs) (requireCompleteHorizon : Bool) (sig : Signal) :
    Except String (Option Trade) :=
  match holdingWindow candles sig.idx mode.holdBars with
  | none => .ok none
  | some (cap, entry) =>
      match mode.rule with
      | .partialTake tp1Pct tp2Pct =>
          let trade := partialDynamicTrade candles sig.idx cap entry sig.side stopPct tp1Pct
            tp2Pct sig costs.pct
          if requireCompleteHorizon ∧ cutOff candles sig.idx mode.holdBars trade.outcome then
            .ok none
          else (bindPartialTrade sha256 trade entry sig.side costs.feesBps costs.slippageBps
            costs.pct).map some
      | rule =>
          let exit := scanDynamicExit candles sig.idx cap entry sig.side stopPct takePct rule
          if requireCompleteHorizon ∧ cutOff candles sig.idx mode.holdBars exit.outcome then
            .ok none
          else (finalizeTrade sha256 candles sig.idx sig.side entry exit sig costs.pct
            (some (legacyFixtureManifest sha256)) (some costs.ledger)).map some

/-- `str.strip().lower()` of a mode name. -/
def normalizeMode (mode : String) : String := lower (strip mode)

/-- `str(params.get("exit_mode") or "baseline").strip().lower()`. -/
def exitModeOf (params : Params) : String :=
  let mode := params.exitMode.getD ""
  normalizeMode (if mode = "" then "baseline" else mode)

/-- The trade of one signal, or none when it is skipped. -/
def tradeOf (sha256 : String → String) (candles : List Candle) (params : Params)
    (costs : Costs) (requireCompleteHorizon : Bool) : Signal → Except String (Option Trade) :=
  let exitMode := exitModeOf params
  let stopPct := params.stopPct.getD 0
  let takePct := params.takePct.getD 0
  if exitMode ≠ "" ∧ exitMode ≠ "baseline" then
    dynamicTrade sha256 candles (dynamicModeParams params exitMode) stopPct takePct costs
      requireCompleteHorizon
  else
    baselineTrade sha256 candles (params.holdBars.getD 5) stopPct takePct costs
      requireCompleteHorizon

def simulateTrades (sha256 : String → String) (candles : List Candle) (signals : List Signal)
    (params : Params) (costs : Costs) (requireCompleteHorizon : Bool) :
    Except String (List Trade) :=
  tradesOf (tradeOf sha256 candles params costs requireCompleteHorizon) signals

end ResearchLab.Simulation
