import Mathlib.Algebra.Order.Field.Basic
import ResearchLab.Foundation.Arrays
import ResearchLab.Foundation.Rounding

/-!
# Signal generators

The registered generators of the families that have a batched kernel. Each loops over the
decision bars and looks at one bar and the bars before it. The kernels of `gpu_kernels` do it for
every decision bar at once, by operations on whole arrays; an array over the decision bars has one
lane for each of them. Floats are elements of a field.
-/
namespace ResearchLab.Signals
open Foundation

structure Bar (K : Type*) where
  openPrice : K
  high : K
  low : K
  close : K
  vol : Option K

inductive Side
  | long | short
  deriving DecidableEq

structure Signal where
  idx : ℕ
  side : Side
  reason : String
  deriving DecidableEq

/-- The params that the families read, each with the default of the family that reads it. -/
structure Params (K : Type*) where
  lookback : Option ℕ := none
  thresholdPct : Option K := none
  maxRangePct : Option K := none
  squeezeRatio : Option K := none
  movePct : Option K := none
  volMult : Option K := none
  minBodyPct : Option K := none
  minClosePos : Option K := none
  rangeLookback : Option ℕ := none
  minAccumulation : Option K := none
  minVolRatio : Option K := none
  volPeriod : Option ℕ := none

variable {K : Type*} [Field K] [LinearOrder K]

/-- `round(x, digits)`: to the nearest multiple of the unit, and to the even one when two are
equally near. -/
def roundDecimals [FloorRing K] (digits : ℕ) (x : K) : K :=
  let y := x * 10 ^ digits
  let even : ℤ :=
    if y - ⌊y⌋ < 1 / 2 then ⌊y⌋
    else if 1 / 2 < y - ⌊y⌋ then ⌊y⌋ + 1
    else if ⌊y⌋ % 2 = 0 then ⌊y⌋ else ⌊y⌋ + 1
  even / 10 ^ digits

example (digits : ℕ) (q : ℚ) : roundDecimals digits q = roundTo digits q := rfl

/-- `candles[idx]` for an index inside the list. -/
def barAt (candles : List (Bar K)) (idx : ℕ) : Bar K := candles.getD idx ⟨0, 0, 0, 0, none⟩

/-- `float(c.get("vol") or 0.0)`. -/
def Bar.volume (bar : Bar K) : K := bar.vol.getD 0

def vols (candles : List (Bar K)) : List K := candles.map Bar.volume

/-! ## Helpers -/

def sma (values : List K) (idx lookback : ℕ) : Option K :=
  if idx < lookback ∨ lookback = 0 then none
  else
    let window := slice values (idx - lookback) idx
    if window = [] then none else some (window.sum / window.length)

def windowHigh (candles : List (Bar K)) (idx lookback : ℕ) : Option K :=
  if idx < lookback ∨ lookback = 0 then none
  else some (maxOf 0 ((slice candles (idx - lookback) idx).map Bar.high))

def windowLow (candles : List (Bar K)) (idx lookback : ℕ) : Option K :=
  if idx < lookback ∨ lookback = 0 then none
  else some (minOf 0 ((slice candles (idx - lookback) idx).map Bar.low))

def bodyPct (bar : Bar K) : Option K :=
  if bar.openPrice ≤ 0 then none else some ((bar.close / bar.openPrice - 1) * 100)

/-- The loop of a generator that decides on bar `idx` and enters at the next one. -/
def signalsFrom (start : ℕ) (candles : List (Bar K)) (decide : ℕ → Option (Side × String)) :
    List Signal :=
  (arange start (candles.length - 1)).filterMap fun idx =>
    (decide idx).map fun hit => ⟨idx + 1, hit.1, hit.2⟩

/-! ## Detectors -/

structure BreakoutDetection (K : Type*) where
  side : Side
  reason : String
  refLevel : K

def detectMomentumBreakout (candles : List (Bar K)) (decisionIdx lookback : ℕ) (thresholdPct : K) :
    Option (BreakoutDetection K) :=
  if decisionIdx < lookback ∨ candles.length ≤ decisionIdx then none
  else
    let close := (barAt candles decisionIdx).close
    match windowHigh candles decisionIdx lookback, windowLow candles decisionIdx lookback with
    | some refHigh, some refLow =>
        if refHigh * (1 + thresholdPct / 100) < close then some ⟨.long, "breakout_high", refHigh⟩
        else if close < refLow * (1 - thresholdPct / 100) then
          some ⟨.short, "breakout_low", refLow⟩
        else none
    | _, _ => none

structure FadeDetection (K : Type*) where
  side : Side
  reason : String
  move : K
  base : K

def detectMeanReversionFade (candles : List (Bar K)) (decisionIdx lookback : ℕ) (movePct : K) :
    Option (FadeDetection K) :=
  if decisionIdx < lookback ∨ candles.length ≤ decisionIdx then none
  else
    let base := (barAt candles (decisionIdx - lookback)).close
    let close := (barAt candles decisionIdx).close
    if base ≤ 0 then none
    else
      let move := (close / base - 1) * 100
      if movePct ≤ move then some ⟨.short, "fade_up_move", move, base⟩
      else if move ≤ -movePct then some ⟨.long, "fade_down_move", move, base⟩
      else none

/-! ## Generators -/

def signalsMomentumBreakout (candles : List (Bar K)) (params : Params K) : List Signal :=
  let lookback := params.lookback.getD 20
  let thresholdPct := params.thresholdPct.getD 0
  signalsFrom lookback candles fun idx =>
    (detectMomentumBreakout candles idx lookback thresholdPct).map fun det => (det.side, det.reason)

/-- The close leaves a channel upwards or downwards. -/
def leaves (value high low : K) (up down : String) : Option (Side × String) :=
  if high < value then some (.long, up)
  else if value < low then some (.short, down)
  else none

def signalsDonchianBreakout (candles : List (Bar K)) (params : Params K) : List Signal :=
  let lookback := params.lookback.getD 20
  signalsFrom lookback candles fun idx =>
    match windowHigh candles idx lookback, windowLow candles idx lookback with
    | some channelHigh, some channelLow =>
        if channelHigh < (barAt candles idx).high then some (.long, "donchian_pierce_high")
        else if (barAt candles idx).low < channelLow then some (.short, "donchian_pierce_low")
        else none
    | _, _ => none

def signalsRangeBreakout (candles : List (Bar K)) (params : Params K) : List Signal :=
  let lookback := params.lookback.getD 30
  let maxRangePct := params.maxRangePct.getD 12
  signalsFrom lookback candles fun idx =>
    match windowHigh candles idx lookback, windowLow candles idx lookback with
    | some high, some low =>
        if low ≤ 0 then none
        else if maxRangePct < (high / low - 1) * 100 then none
        else leaves (barAt candles idx).close high low "range_breakout_up" "range_breakout_down"
    | _, _ => none

def signalsVolatilitySqueezeBreakout (candles : List (Bar K)) (params : Params K) : List Signal :=
  let lookback := params.lookback.getD 20
  let squeezeRatio := params.squeezeRatio.getD (6 / 10)
  signalsFrom (2 * lookback) candles fun idx =>
    match windowHigh candles idx lookback, windowLow candles idx lookback,
      windowHigh candles (idx - lookback) lookback, windowLow candles (idx - lookback) lookback with
    | some curHigh, some curLow, some prevHigh, some prevLow =>
        let curRange := curHigh - curLow
        let prevRange := prevHigh - prevLow
        if prevRange ≤ 0 ∨ prevRange * squeezeRatio < curRange then none
        else leaves (barAt candles idx).close curHigh curLow "squeeze_break_up" "squeeze_break_down"
    | _, _, _, _ => none

def signalsMeanReversionFade (candles : List (Bar K)) (params : Params K) : List Signal :=
  let lookback := params.lookback.getD 5
  let movePct := params.movePct.getD 8
  signalsFrom lookback candles fun idx =>
    (detectMeanReversionFade candles idx lookback movePct).map fun det => (det.side, det.reason)

def signalsVolumeShockContinuation (candles : List (Bar K)) (params : Params K) : List Signal :=
  let lookback := params.lookback.getD 20
  let volMult := params.volMult.getD 2
  let minBodyPct := params.minBodyPct.getD 3
  let volValues := vols candles
  signalsFrom lookback candles fun idx =>
    match sma volValues idx lookback with
    | none => none
    | some avgVol =>
        if avgVol = 0 then none
        else
          match bodyPct (barAt candles idx) with
          | none => none
          | some body =>
              if avgVol * volMult ≤ volValues.getD idx 0 ∧ minBodyPct ≤ |body| then
                some (if 0 < body then .long else .short, "volume_shock")
              else none

def signalsImpulseContinuation (candles : List (Bar K)) (params : Params K) : List Signal :=
  let minBodyPct := params.minBodyPct.getD 6
  let minClosePos := params.minClosePos.getD (7 / 10)
  signalsFrom 1 candles fun idx =>
    let cur := barAt candles idx
    match bodyPct cur with
    | none => none
    | some body =>
        if |body| < minBodyPct then none
        else
          let barRange := cur.high - cur.low
          if barRange ≤ 0 then none
          else
            let closePos := (cur.close - cur.low) / barRange
            if 0 < body ∧ minClosePos ≤ closePos then some (.long, "impulse_up_strong_close")
            else if body < 0 ∧ closePos ≤ 1 - minClosePos then
              some (.short, "impulse_down_weak_close")
            else none

/-! ## Volume features -/

def baseline (volList : List K) (idx period : ℕ) : Option K :=
  if idx < period ∨ period = 0 then none
  else
    let window := slice volList (idx - period) idx
    let base := if window = [] then 0 else window.sum / window.length
    if 0 < base then some base else none

section
variable [FloorRing K]

def volRatioAt (candles : List (Bar K)) (idx period : ℕ) : Option K :=
  let v := vols candles
  (baseline v idx period).map fun base => roundDecimals 4 (v.getD idx 0 / base)

structure SidewaysRange (K : Type*) where
  isSideways : Bool
  rangePct : K
  accumulationRatio : Option K

def sidewaysRangeVolumeAt (candles : List (Bar K)) (idx lookback : ℕ) (maxRangePct : K) :
    Option (SidewaysRange K) :=
  if idx < 2 * lookback ∨ lookback = 0 then none
  else
    let v := vols candles
    let winHigh := maxOf 0 (slice (candles.map Bar.high) (idx - lookback) idx)
    let winLow := minOf 0 (slice (candles.map Bar.low) (idx - lookback) idx)
    if winLow ≤ 0 then none
    else
      let rangePct := roundDecimals 4 ((winHigh / winLow - 1) * 100)
      let windowVol := (slice v (idx - lookback) idx).sum
      let priorVol := (slice v (idx - 2 * lookback) (idx - lookback)).sum
      some
        { isSideways := rangePct ≤ maxRangePct
          rangePct
          accumulationRatio :=
            if 0 < priorVol then some (roundDecimals 4 (windowVol / priorVol)) else none }

def signalsRangeVolumeBreakout (candles : List (Bar K)) (params : Params K) : List Signal :=
  let lookback := params.rangeLookback.getD 20
  let maxRangePct := params.maxRangePct.getD 12
  let minAccum := params.minAccumulation.getD 1
  let minVol := params.minVolRatio.getD (15 / 10)
  let volPeriod := params.volPeriod.getD 20
  signalsFrom (max (2 * lookback) volPeriod) candles fun idx =>
    match sidewaysRangeVolumeAt candles idx lookback maxRangePct with
    | none => none
    | some sideways =>
        if !sideways.isSideways then none
        else
          match sideways.accumulationRatio with
          | none => none
          | some accum =>
              if accum < minAccum then none
              else
                match volRatioAt candles idx volPeriod with
                | none => none
                | some volRatio =>
                    if volRatio < minVol then none
                    else
                      match windowHigh candles idx lookback, windowLow candles idx lookback with
                      | some hi, some lo =>
                          leaves (barAt candles idx).close hi lo "range_accum_breakout_up"
                            "range_accum_breakout_down"
                      | _, _ => none

end

def signalsPumpDumpScalp (candles : List (Bar K)) (params : Params K) : List Signal :=
  let minBodyPct := params.minBodyPct.getD 3
  let volMult := params.volMult.getD 3
  let volPeriod := params.volPeriod.getD 20
  let minClosePos := params.minClosePos.getD (6 / 10)
  let v := vols candles
  signalsFrom volPeriod candles fun idx =>
    let cur := barAt candles idx
    if cur.openPrice ≤ 0 then none
    else
      let body := (cur.close / cur.openPrice - 1) * 100
      let base := (slice v (idx - volPeriod) idx).sum / volPeriod
      if base ≤ 0 then none
      else
        let volRatio := v.getD idx 0 / base
        if volRatio < volMult then none
        else
          let rng := cur.high - cur.low
          let closePos := if 0 < rng then (cur.close - cur.low) / rng else 5 / 10
          if minBodyPct ≤ body ∧ minClosePos ≤ closePos then some (.long, "pump_volume_shock_up")
          else if body ≤ -minBodyPct ∧ closePos ≤ 1 - minClosePos then
            some (.short, "dump_volume_shock_down")
          else none

/-! ## The registry -/

/-- The families that have both a registered generator and a kernel. -/
inductive Family
  | momentumBreakout | donchianBreakout | rangeBreakout | volatilitySqueezeBreakout
  | meanReversionFade | volumeShockContinuation | impulseContinuation | rangeVolumeBreakout
  | pumpDumpScalp
  deriving DecidableEq

/-- `get_strategy(family).generate_signals(candles, params)`. -/
def generateSignals [FloorRing K] (candles : List (Bar K)) (family : Family) (params : Params K) :
    List Signal :=
  match family with
  | .momentumBreakout => signalsMomentumBreakout candles params
  | .donchianBreakout => signalsDonchianBreakout candles params
  | .rangeBreakout => signalsRangeBreakout candles params
  | .volatilitySqueezeBreakout => signalsVolatilitySqueezeBreakout candles params
  | .meanReversionFade => signalsMeanReversionFade candles params
  | .volumeShockContinuation => signalsVolumeShockContinuation candles params
  | .impulseContinuation => signalsImpulseContinuation candles params
  | .rangeVolumeBreakout => signalsRangeVolumeBreakout candles params
  | .pumpDumpScalp => signalsPumpDumpScalp candles params

/-! ## Arrays of a batch -/

/-- `prepare_candle_arrays`. -/
structure CandleArrays (K : Type*) where
  opens : List K
  highs : List K
  lows : List K
  closes : List K
  vols : List K

def prepareCandleArrays (candles : List (Bar K)) : CandleArrays K where
  opens := candles.map Bar.openPrice
  highs := candles.map Bar.high
  lows := candles.map Bar.low
  closes := candles.map Bar.close
  vols := candles.map Bar.volume

/-- The signals of the decision bars with a long or else a short mask. -/
def breakoutSignals (decision : List ℕ) (longMask shortMask : List Bool)
    (upReason downReason : String) : List Signal :=
  (decision.zip (longMask.zip shortMask)).filterMap fun lane =>
    if lane.2.1 then some ⟨lane.1 + 1, .long, upReason⟩
    else if lane.2.2 then some ⟨lane.1 + 1, .short, downReason⟩
    else none

/-! ## Array operations of the kernels -/

/-- `values[win].max(axis=1)`. -/
def rowMax (values : List K) (win : List (List ℕ)) : List K :=
  (gatherRows values 0 win).map (maxOf 0)

/-- `values[win].min(axis=1)`. -/
def rowMin (values : List K) (win : List (List ℕ)) : List K :=
  (gatherRows values 0 win).map (minOf 0)

/-- `values[win].sum(axis=1)`. -/
def rowSum (values : List K) (win : List (List ℕ)) : List K :=
  (gatherRows values 0 win).map List.sum

/-- `values[win].sum(axis=1) / width`. -/
def rowMean (values : List K) (win : List (List ℕ)) (width : ℕ) : List K :=
  (rowSum values win).map fun x => x / (width : K)

/-- `where(a > 0, a, 1.0)`. -/
def safe (a : List K) : List K := a.map fun x => if 0 < x then x else 1

def positive (a : List K) : List Bool := a.map fun x => decide (0 < x)

/-- `a > b`. -/
def above (a b : List K) : List Bool := lanes (fun x y => decide (y < x)) a b

/-- `a < b`. -/
def below (a b : List K) : List Bool := lanes (fun x y => decide (x < y)) a b

/-- `a >= bound`. -/
def atLeast (a : List K) (bound : K) : List Bool := a.map fun x => decide (bound ≤ x)

/-- `a <= bound`. -/
def atMost (a : List K) (bound : K) : List Bool := a.map fun x => decide (x ≤ bound)

def both (a b : List Bool) : List Bool := lanes (· && ·) a b

def neither (a : List Bool) : List Bool := a.map (!·)

/-- `(a / b - 1.0) * 100.0`. -/
def pctChange (a b : List K) : List K := lanes (fun x y => (x / y - 1) * 100) a b

/-- `where(rng > 0, (c - l) / where(rng > 0, rng, 1.0), 0.5)`. -/
def closePosition (rng c l : List K) : List K :=
  lanes (fun (r : K) (q : K) => if 0 < r then q else 5 / 10) rng
    (lanes (· / ·) (lanes (· - ·) c l) (safe rng))

/-! ## Kernels -/

def momentumBreakoutSignals (highs lows closes : List K) (lookback : ℕ) (thresholdPct : K) :
    List Signal :=
  let n := closes.length
  if lookback = 0 ∨ n ≤ lookback + 1 then []
  else
    let decision := arange lookback (n - 1)
    let win := windows decision lookback lookback
    let high := rowMax highs win
    let low := rowMin lows win
    let closeD := gather closes 0 decision
    let longMult := 1 + thresholdPct / 100
    let shortMult := 1 - thresholdPct / 100
    let longMask := above closeD (high.map (· * longMult))
    let shortMask := both (neither longMask) (below closeD (low.map (· * shortMult)))
    breakoutSignals decision longMask shortMask "breakout_high" "breakout_low"

def donchianBreakoutSignals (highs lows : List K) (lookback : ℕ) : List Signal :=
  let n := highs.length
  if lookback = 0 ∨ n ≤ lookback + 1 then []
  else
    let d := arange lookback (n - 1)
    let win := windows d lookback lookback
    let longMask := above (gather highs 0 d) (rowMax highs win)
    let shortMask := both (neither longMask) (below (gather lows 0 d) (rowMin lows win))
    breakoutSignals d longMask shortMask "donchian_pierce_high" "donchian_pierce_low"

def rangeBreakoutSignals (highs lows closes : List K) (lookback : ℕ) (maxRangePct : K) :
    List Signal :=
  let n := closes.length
  if lookback = 0 ∨ n ≤ lookback + 1 then []
  else
    let d := arange lookback (n - 1)
    let win := windows d lookback lookback
    let winHigh := rowMax highs win
    let winLow := rowMin lows win
    let tight := both (positive winLow) (atMost (pctChange winHigh (safe winLow)) maxRangePct)
    let longMask := both tight (above (gather closes 0 d) winHigh)
    let shortMask := both (both tight (neither longMask)) (below (gather closes 0 d) winLow)
    breakoutSignals d longMask shortMask "range_breakout_up" "range_breakout_down"

def volatilitySqueezeBreakoutSignals (highs lows closes : List K) (lookback : ℕ)
    (squeezeRatio : K) : List Signal :=
  let n := closes.length
  let start := 2 * lookback
  if lookback = 0 ∨ n ≤ start + 1 then []
  else
    let d := arange start (n - 1)
    let cur := windows d lookback lookback
    let prev := windows d (2 * lookback) lookback
    let curHigh := rowMax highs cur
    let curLow := rowMin lows cur
    let prevRange := lanes (· - ·) (rowMax highs prev) (rowMin lows prev)
    let squeezed := both (positive prevRange)
      (lanes (fun r p => decide (r ≤ p * squeezeRatio)) (lanes (· - ·) curHigh curLow) prevRange)
    let longMask := both squeezed (above (gather closes 0 d) curHigh)
    let shortMask := both (both squeezed (neither longMask)) (below (gather closes 0 d) curLow)
    breakoutSignals d longMask shortMask "squeeze_break_up" "squeeze_break_down"

def meanReversionFadeSignals (closes : List K) (lookback : ℕ) (movePct : K) : List Signal :=
  let n := closes.length
  if lookback = 0 ∨ n ≤ lookback + 1 then []
  else
    let d := arange lookback (n - 1)
    let base := gather closes 0 (d.map (· - lookback))
    let move := pctChange (gather closes 0 d) (safe base)
    let valid := positive base
    let shortMask := both valid (atLeast move movePct)
    let longMask := both (both valid (neither shortMask)) (atMost move (-movePct))
    breakoutSignals d longMask shortMask "fade_down_move" "fade_up_move"

def volumeShockContinuationSignals (opens closes vols : List K) (lookback : ℕ)
    (volMult minBodyPct : K) : List Signal :=
  let n := closes.length
  if lookback = 0 ∨ n ≤ lookback + 1 then []
  else
    let d := arange lookback (n - 1)
    let win := windows d lookback lookback
    let avg := rowMean vols win lookback
    let openD := gather opens 0 d
    let body := pctChange (gather closes 0 d) (safe openD)
    let valid := both
      (both (both (avg.map fun x => decide (x ≠ 0)) (positive openD))
        (lanes (fun v a => decide (a * volMult ≤ v)) (gather vols 0 d) avg))
      (atLeast (body.map fun x => |x|) minBodyPct)
    let longMask := both valid (positive body)
    let shortMask := both valid (neither longMask)
    breakoutSignals d longMask shortMask "volume_shock" "volume_shock"

def impulseContinuationSignals (opens highs lows closes : List K) (minBodyPct minClosePos : K) :
    List Signal :=
  let n := closes.length
  if n ≤ 2 then []
  else
    let d := arange 1 (n - 1)
    let openD := gather opens 0 d
    let lowD := gather lows 0 d
    let closeD := gather closes 0 d
    let body := pctChange closeD (safe openD)
    let rng := lanes (· - ·) (gather highs 0 d) lowD
    let closePos := closePosition rng closeD lowD
    let valid := both (both (positive openD) (positive rng))
      (atLeast (body.map fun x => |x|) minBodyPct)
    let longMask := both (both valid (positive body)) (atLeast closePos minClosePos)
    let shortMask := both
      (both (both valid (neither longMask)) (body.map fun x => decide (x < 0)))
      (atMost closePos (1 - minClosePos))
    breakoutSignals d longMask shortMask "impulse_up_strong_close" "impulse_down_weak_close"

def rangeVolumeBreakoutSignals [FloorRing K] (highs lows closes vols : List K) (lookback : ℕ)
    (maxRangePct minAccumulation minVolRatio : K) (volPeriod : ℕ) : List Signal :=
  let n := closes.length
  let start := max (2 * lookback) volPeriod
  if lookback = 0 ∨ n ≤ start + 1 then []
  else
    let d := arange start (n - 1)
    let curWin := windows d lookback lookback
    let prevWin := windows d (2 * lookback) lookback
    let volWin := windows d volPeriod volPeriod
    let winHigh := rowMax highs curWin
    let winLow := rowMin lows curWin
    let windowVol := rowSum vols curWin
    let priorVol := rowSum vols prevWin
    let volBase := rowMean vols volWin volPeriod
    let closeD := gather closes 0 d
    let rangePct := (pctChange winHigh (safe winLow)).map (roundDecimals 4)
    let sidewaysOk := both (positive winLow) (atMost rangePct maxRangePct)
    let accumulation := (lanes (· / ·) windowVol (safe priorVol)).map (roundDecimals 4)
    let accumOk := both (positive priorVol) (atLeast accumulation minAccumulation)
    let volRatio := (lanes (· / ·) (gather vols 0 d) (safe volBase)).map (roundDecimals 4)
    let vrOk := both (positive volBase) (atLeast volRatio minVolRatio)
    let allOk := both (both sidewaysOk accumOk) vrOk
    let longMask := both allOk (above closeD winHigh)
    let shortMask := both allOk (below closeD winLow)
    breakoutSignals d longMask shortMask "range_accum_breakout_up" "range_accum_breakout_down"

def pumpDumpScalpSignals (opens highs lows closes vols : List K) (minBodyPct volMult : K)
    (volPeriod : ℕ) (minClosePos : K) : List Signal :=
  let n := closes.length
  if volPeriod = 0 ∨ n ≤ volPeriod + 1 then []
  else
    let d := arange volPeriod (n - 1)
    let volWin := windows d volPeriod volPeriod
    let base := rowMean vols volWin volPeriod
    let openD := gather opens 0 d
    let closeD := gather closes 0 d
    let lowD := gather lows 0 d
    let body := pctChange closeD (safe openD)
    let volRatio := lanes (· / ·) (gather vols 0 d) (safe base)
    let rng := lanes (· - ·) (gather highs 0 d) lowD
    let closePos := closePosition rng closeD lowD
    let valid := both (both (positive openD) (positive base)) (atLeast volRatio volMult)
    let longMask := both (both valid (atLeast body minBodyPct)) (atLeast closePos minClosePos)
    let shortMask := both (both (both valid (neither longMask)) (atMost body (-minBodyPct)))
      (atMost closePos (1 - minClosePos))
    breakoutSignals d longMask shortMask "pump_volume_shock_up" "dump_volume_shock_down"

/-- `generate_signals_vectorized` for a family that has a kernel. -/
def generateSignalsVectorized [FloorRing K] (candles : List (Bar K)) (family : Family)
    (params : Params K) : List Signal :=
  let prepared := prepareCandleArrays candles
  let highs := prepared.highs
  let lows := prepared.lows
  let closes := prepared.closes
  match family with
  | .momentumBreakout =>
      momentumBreakoutSignals highs lows closes (params.lookback.getD 20)
        (params.thresholdPct.getD 0)
  | .donchianBreakout => donchianBreakoutSignals highs lows (params.lookback.getD 20)
  | .rangeBreakout =>
      rangeBreakoutSignals highs lows closes (params.lookback.getD 30) (params.maxRangePct.getD 12)
  | .volatilitySqueezeBreakout =>
      volatilitySqueezeBreakoutSignals highs lows closes (params.lookback.getD 20)
        (params.squeezeRatio.getD (6 / 10))
  | .meanReversionFade =>
      meanReversionFadeSignals closes (params.lookback.getD 5) (params.movePct.getD 8)
  | .volumeShockContinuation =>
      volumeShockContinuationSignals prepared.opens closes prepared.vols (params.lookback.getD 20)
        (params.volMult.getD 2) (params.minBodyPct.getD 3)
  | .impulseContinuation =>
      impulseContinuationSignals prepared.opens highs lows closes (params.minBodyPct.getD 6)
        (params.minClosePos.getD (7 / 10))
  | .rangeVolumeBreakout =>
      rangeVolumeBreakoutSignals highs lows closes prepared.vols (params.rangeLookback.getD 20)
        (params.maxRangePct.getD 12) (params.minAccumulation.getD 1)
        (params.minVolRatio.getD (15 / 10)) (params.volPeriod.getD 20)
  | .pumpDumpScalp =>
      pumpDumpScalpSignals prepared.opens highs lows closes prepared.vols
        (params.minBodyPct.getD 3) (params.volMult.getD 3) (params.volPeriod.getD 20)
        (params.minClosePos.getD (6 / 10))

end ResearchLab.Signals
