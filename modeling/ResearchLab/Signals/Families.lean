import Mathlib
import ResearchLab.Signals.Features

/-!
# Signal families

The generators of the retest, structure, regime, VWAP and flow families. A retest generator walks
over the bars with an index of its own: from a break it looks ahead for the retest and goes on
behind it.
-/
namespace ResearchLab.Signals
open Foundation

/-- The `params` mapping: its integer, its number and its flag entries. -/
structure StrategyParams where
  window : String → Option ℕ
  number : String → Option ℚ
  flag : String → Option Bool

namespace StrategyParams

variable (params : StrategyParams)

/-- `int(params.get(key, default))`. -/
def int (key : String) (fallback : ℕ) : ℕ := (params.window key).getD fallback

/-- `float(params.get(key, default))`. -/
def float (key : String) (fallback : ℚ) : ℚ := (params.number key).getD fallback

/-- `bool(params.get(key, default))`. -/
def bool (key : String) (fallback : Bool) : Bool := (params.flag key).getD fallback

/-- What the breakout families and `pump_dump_scalp` read. -/
def toParams : Params ℚ where
  lookback := params.window "lookback"
  thresholdPct := params.number "threshold_pct"
  maxRangePct := params.number "max_range_pct"
  squeezeRatio := params.number "squeeze_ratio"
  minBodyPct := params.number "min_body_pct"
  volMult := params.number "vol_mult"
  volPeriod := params.window "vol_period"
  minClosePos := params.number "min_close_pos"

end StrategyParams

/-! ## Retests -/

/-- A break of a level, with the reason of the signal of its retest. -/
structure Break where
  side : Side
  level : ℚ
  reason : String

/-- Bar `j` touches the level within the tolerance and closes on the side of the break. -/
def retests (candles : List Candle) (side : Side) (level tolPct : ℚ) (j : ℕ) : Bool :=
  let tol := level * tolPct / 100
  match side with
  | .long => (candleAt candles j).low ≤ level + tol ∧ level < (candleAt candles j).close
  | .short => level - tol ≤ (candleAt candles j).high ∧ (candleAt candles j).close < level

/-- `_find_retest`, the same in both modules. -/
def findRetest (candles : List Candle) (breakIdx retestWindow : ℕ) (level tolPct : ℚ)
    (side : Side) : Option ℕ :=
  (arange (breakIdx + 1) (min (breakIdx + 1 + retestWindow) (candles.length - 1))).find?
    (retests candles side level tolPct)

/-- The first of the breaks of a bar that has a retest, as the bar of the retest with its side and
reason. -/
def attemptAt (candles : List Candle) (retestWindow : ℕ) (tolPct : ℚ) (idx : ℕ)
    (breaks : List Break) : Option (ℕ × Side × String) :=
  breaks.findSome? fun b =>
    (findRetest candles idx retestWindow b.level tolPct b.side).map fun hit => (hit, b.side, b.reason)

/-- The loop `while idx < stop` of a retest generator. Each round moves the index on, so `stop`
rounds are enough. -/
def retestLoop (attempt : ℕ → Option (ℕ × Side × String)) (stop : ℕ) : ℕ → ℕ → List Signal
  | 0, _ => []
  | rounds + 1, idx =>
      if stop ≤ idx then []
      else
        match attempt idx with
        | some (hit, side, reason) =>
            ⟨hit + 1, side, reason⟩ :: retestLoop attempt stop rounds (hit + 1)
        | none => retestLoop attempt stop rounds (idx + 1)

/-- The break of a bar out of the window before it; a break upwards hides one downwards. -/
def breakoutBreaks (candles : List Candle) (lookback idx : ℕ) : List Break :=
  let close := (candleAt candles idx).close
  match windowHigh (bars candles) idx lookback, windowLow (bars candles) idx lookback with
  | some levelHigh, some levelLow =>
      if levelHigh < close then [⟨.long, levelHigh, "retest_hold_support"⟩]
      else if close < levelLow then [⟨.short, levelLow, "retest_hold_resistance"⟩]
      else []
  | _, _ => []

def signalsBreakoutRetest (candles : List Candle) (params : StrategyParams) : List Signal :=
  let lookback := params.int "lookback" 20
  let retestWindow := params.int "retest_window" 5
  let tolPct := params.float "retest_tol_pct" 1
  let stop := candles.length - 1
  retestLoop
    (fun idx => attemptAt candles retestWindow tolPct idx (breakoutBreaks candles lookback idx))
    stop stop lookback

/-- The pivots among the bars with `lookback` bars on each side, as the bar that confirms them and
their level. -/
def confirmedPivots (values : List ℚ) (lookback : ℕ) (isPivot : ℚ → List ℚ → Bool) :
    List (ℕ × ℚ) :=
  (arange lookback (values.length - lookback)).filterMap fun i =>
    let level := values.getD i 0
    if isPivot level (slice values (i - lookback) (i + lookback + 1)) then
      some (i + lookback, level)
    else none

def confirmedHighs (candles : List Candle) (lookback : ℕ) : List (ℕ × ℚ) :=
  confirmedPivots (highs candles) lookback fun level window => maxOf 0 window ≤ level

def confirmedLows (candles : List Candle) (lookback : ℕ) : List (ℕ × ℚ) :=
  confirmedPivots (lows candles) lookback fun level window => level ≤ minOf 0 window

/-- `_last_level`: the level of the last pivot before the first one confirmed behind `asOf`. -/
def lastLevel (pivots : List (ℕ × ℚ)) (asOf : ℕ) : Option ℚ :=
  ((pivots.takeWhile fun pivot => pivot.1 ≤ asOf).getLast?).map Prod.snd

def fractalBreaks (candles : List Candle) (lookback idx : ℕ) : List Break :=
  let close := (candleAt candles idx).close
  let res := (lastLevel (confirmedHighs candles lookback) idx).filter fun res => res < close
  let sup := (lastLevel (confirmedLows candles lookback) idx).filter fun sup => close < sup
  (res.map fun res => ⟨.long, res, "fractal_break_retest_long"⟩).toList ++
    (sup.map fun sup => ⟨.short, sup, "fractal_break_retest_short"⟩).toList

def signalsFractalSwingBreakRetest (candles : List Candle) (params : StrategyParams) :
    List Signal :=
  let lookback := params.int "swing_lookback" 3
  let retestWindow := params.int "retest_window" 5
  let tolPct := params.float "retest_tol_pct" 1
  let stop := candles.length - 1
  retestLoop
    (fun idx => attemptAt candles retestWindow tolPct idx (fractalBreaks candles lookback idx))
    stop stop (lookback * 2)

/-! ## Structure and regime -/

/-- A gap of one direction is near enough and the bar reacts to it. -/
def reactsTo (candles : List Candle) (idx lookback : ℕ) (maxDistance : ℚ) (direction : Direction)
    (reaction : GapReaction) : Bool :=
  match nearestFvgDistanceAt candles idx direction lookback with
  | none => false
  | some dist => |dist| ≤ maxDistance ∧ fvgReactionAt candles idx direction lookback = some reaction

def signalsFvgReclaimReject (candles : List Candle) (params : StrategyParams) : List Signal :=
  let lookback := params.int "fvg_lookback" 30
  let maxDistance := params.float "max_distance_pct" 3
  signalsFrom 3 (bars candles) fun idx =>
    if reactsTo candles idx lookback maxDistance .bull .reclaim then
      some (.long, "fvg_bull_reclaim")
    else if reactsTo candles idx lookback maxDistance .bear .reject then
      some (.short, "fvg_bear_reject")
    else none

/-- `avg_vol is None or vol <= avg_vol * mult`. -/
def lacksVolume (candles : List Candle) (idx lookback : ℕ) (mult : ℚ) : Bool :=
  match sma (vols (bars candles)) idx lookback with
  | none => true
  | some avgVol => (candleAt candles idx).volume ≤ avgVol * mult

def signalsSfpLiquiditySweep (candles : List Candle) (params : StrategyParams) : List Signal :=
  let lookback := params.int "lookback" 20
  let volMult := params.float "vol_mult" 0
  let reclaimBufPct := params.float "reclaim_buf_pct" 0
  signalsFrom lookback (bars candles) fun idx =>
    match windowHigh (bars candles) idx lookback, windowLow (bars candles) idx lookback with
    | some swingHigh, some swingLow =>
        let cur := candleAt candles idx
        if 0 < volMult ∧ lacksVolume candles idx lookback volMult then none
        else if swingHigh < cur.high ∧ cur.close < swingHigh * (1 - reclaimBufPct / 100) then
          some (.short, "sfp_sweep_high")
        else if cur.low < swingLow ∧ swingLow * (1 + reclaimBufPct / 100) < cur.close then
          some (.long, "sfp_sweep_low")
        else none
    | _, _ => none

def signalsExhaustionFade (candles : List Candle) (params : StrategyParams) : List Signal :=
  let runLookback := params.int "run_lookback" 6
  let runPct := params.float "run_pct" 15
  let volClimaxMult := params.float "vol_climax_mult" (3 / 2)
  signalsFrom runLookback (bars candles) fun idx =>
    let base := (candleAt candles (idx - runLookback)).close
    if base ≤ 0 then none
    else
      let cum := ((candleAt candles idx).close / base - 1) * 100
      if |cum| < runPct then none
      else if 0 < volClimaxMult ∧ lacksVolume candles idx runLookback volClimaxMult then none
      else if 0 < cum then some (.short, "exhaustion_fade_up")
      else some (.long, "exhaustion_fade_down")

inductive RegimeLabel
  | trending | drift | ranging
  deriving DecidableEq

def regimeOf (adx diSpread : ℚ) (params : StrategyParams) : RegimeLabel :=
  let adxTrend := params.float "adx_trend" 22
  let diTrend := params.float "di_trend" 10
  let driftLo := params.float "drift_adx_lo" 12
  let driftHi := params.float "drift_adx_hi" 30
  let driftDi := params.float "drift_di" 5
  if adxTrend ≤ adx ∧ diTrend ≤ |diSpread| then .trending
  else if driftLo ≤ adx ∧ adx ≤ driftHi ∧ driftDi ≤ |diSpread| then .drift
  else .ranging

/-- The volume of a bar over the mean of the `period` bars before it; zero without a baseline. -/
def regimeVolRatio (v : List ℚ) (idx period : ℕ) : ℚ :=
  let base := if period ≤ idx then (slice v (idx - period) idx).sum / period else 0
  if 0 < base then v.getD idx 0 / base else 0

def signalsMainFastSwingRegime (candles : List Candle) (params : StrategyParams) : List Signal :=
  let emaFast := params.int "ema_fast" 20
  let emaSlow := params.int "ema_slow" 50
  let adxPeriod := params.int "adx_period" 14
  let lookback := params.int "breakout_lookback" 20
  let minVol := params.float "min_vol_ratio" (12 / 10)
  let volPeriod := params.int "vol_period" 20
  let c := closes candles
  let emaF := emaSeries c emaFast
  let emaS := emaSeries c emaSlow
  let series := adxSeries candles adxPeriod
  let v := vols (bars candles)
  let start := max (max (max (adxPeriod * 2) emaSlow) lookback) volPeriod
  signalsFrom start (bars candles) fun idx =>
    let fast := emaF.getD idx 0
    let slow := emaS.getD idx 0
    let adx := series.adx.getD idx 0
    let plusDi := series.plusDi.getD idx 0
    let minusDi := series.minusDi.getD idx 0
    if slow = 0 ∨ adx = 0 then none
    else if regimeOf adx (plusDi - minusDi) params ≠ .trending then none
    else if regimeVolRatio v idx volPeriod < minVol then none
    else
      match windowHigh (bars candles) idx lookback, windowLow (bars candles) idx lookback with
      | some hi, some lo =>
          if (slow < fast ∧ minusDi < plusDi) ∧ hi < c.getD idx 0 then
            some (.long, "regime_trend_breakout_up")
          else if (fast < slow ∧ plusDi < minusDi) ∧ c.getD idx 0 < lo then
            some (.short, "regime_trend_breakout_down")
          else none
      | _, _ => none

def signalsVwapReclaimReject (candles : List Candle) (params : StrategyParams) : List Signal :=
  let period := params.int "vwap_period" 20
  let emaFast := params.int "ema_fast" 20
  let emaSlow := params.int "ema_slow" 50
  let maxDayPos := params.float "max_day_position" (7 / 10)
  let useDayFilter := params.bool "use_day_filter" true
  let c := closes candles
  let emaF := emaSeries c emaFast
  let emaS := emaSeries c emaSlow
  signalsFrom (max (period + 1) emaSlow) (bars candles) fun idx =>
    let fast := emaF.getD idx 0
    let slow := emaS.getD idx 0
    if slow = 0 then none
    else
      let day := if useDayFilter then dayPositionAt candles idx else none
      match vwapReclaimRejectAt candles idx period with
      | none => none
      | some .reclaimUp =>
          if slow < fast ∧ ∀ d ∈ day, d.dayPosition ≤ maxDayPos then
            some (.long, "vwap_reclaim_up")
          else none
      | some .rejectDown =>
          if ¬ slow < fast ∧ ∀ d ∈ day, 1 - maxDayPos ≤ d.dayPosition then
            some (.short, "vwap_reject_down")
          else none

/-! ## Open interest -/

def signalsOiFundingSqueeze (candles : List Candle) (params : StrategyParams) : List Signal :=
  let oiLookback := params.int "oi_lookback" 5
  let oiSurgeMin := params.float "oi_surge_min" 1
  let warn := params.float "funding_warn" (5 / 10000)
  let block := params.float "funding_block" (1 / 1000)
  signalsFrom oiLookback (bars candles) fun idx =>
    match fundingExtremeAt candles idx warn block, oiDeltaAt candles idx oiLookback with
    | some extreme, some dOi =>
        if dOi < oiSurgeMin then none
        else
          match extreme.1 with
          | .longSqueezeRisk => some (.short, "fade_crowded_longs")
          | .shortSqueezeRisk => some (.long, "fade_crowded_shorts")
    | _, _ => none

def signalsOiPriceQuadrant (candles : List Candle) (params : StrategyParams) : List Signal :=
  let oiLookback := params.int "oi_lookback" 5
  let fadeTraps := params.bool "fade_traps" false
  signalsFrom oiLookback (bars candles) fun idx =>
    match oiPriceQuadrantAt candles idx oiLookback with
    | none => none
    | some .newLongs => some (.long, "oi_new_longs_continuation")
    | some .newShorts => some (.short, "oi_new_shorts_continuation")
    | some .shortCovering => if fadeTraps then some (.short, "oi_short_covering_fade") else none
    | some .longLiquidation => if fadeTraps then some (.long, "oi_long_flush_fade") else none

def Quadrant.text : Quadrant → String
  | .newLongs => "new_longs"
  | .newShorts => "new_shorts"
  | .shortCovering => "short_covering"
  | .longLiquidation => "long_liquidation"

def Side.text : Side → String
  | .long => "long"
  | .short => "short"

def quadrantDirectional (candles : List Candle) (params : StrategyParams)
    (mapping : Quadrant → Option Side) : List Signal :=
  let oiLookback := params.int "oi_lookback" 5
  signalsFrom oiLookback (bars candles) fun idx =>
    (oiPriceQuadrantAt candles idx oiLookback).bind fun quadrant =>
      (mapping quadrant).map fun side => (side, "oi_" ++ quadrant.text ++ "_" ++ side.text)

def signalsOiPriceQuadrantContinuation (candles : List Candle) (params : StrategyParams) :
    List Signal :=
  quadrantDirectional candles params fun quadrant =>
    if quadrant = .newLongs then some .long
    else if quadrant = .newShorts then some .short
    else none

def signalsOiPriceQuadrantTrapFade (candles : List Candle) (params : StrategyParams) :
    List Signal :=
  quadrantDirectional candles params fun quadrant =>
    if quadrant = .newLongs then some .short
    else if quadrant = .newShorts then some .long
    else none

end ResearchLab.Signals
