import Mathlib
import ResearchLab.Foundation.Sorting
import ResearchLab.Signals.Generators

/-!
# Features

The indicator series and the features as of one bar that the structure, regime and flow families
read.
-/
namespace ResearchLab.Signals
open Foundation

/-- A candle with its time and the optional side data; `oi` and `funding` are the values that
`_val` reads. -/
structure Candle extends Bar ℚ where
  ts : Option ℤ
  oi : Option ℚ
  funding : Option ℚ

/-- `candles[idx]` for an index inside the list. -/
def candleAt (candles : List Candle) (idx : ℕ) : Candle :=
  candles.getD idx ⟨⟨0, 0, 0, 0, none⟩, none, none, none⟩

def bars (candles : List Candle) : List (Bar ℚ) := candles.map Candle.toBar

def closes (candles : List Candle) : List ℚ := candles.map fun c => c.close

def highs (candles : List Candle) : List ℚ := candles.map fun c => c.high

def lows (candles : List Candle) : List ℚ := candles.map fun c => c.low

/-! ## Series -/

/-- The mean of the first `period` closes seeds the average; the positions before it are zero. -/
def emaSeries (closeValues : List ℚ) (period : ℕ) : List ℚ :=
  let n := closeValues.length
  if n < period ∨ period = 0 then List.replicate n 0
  else
    let k : ℚ := 2 / (period + 1)
    List.replicate (period - 1) 0 ++
      (closeValues.drop period).scanl (fun ema close => close * k + ema * (1 - k))
        ((closeValues.take period).sum / period)

def trueRangeAt (candles : List Candle) (i : ℕ) : ℚ :=
  let cur := candleAt candles i
  let prev := candleAt candles (i - 1)
  max (max (cur.high - cur.low) |cur.high - prev.close|) |cur.low - prev.close|

/-- The upward and the downward movement of bar `i`; the smaller of the two counts as zero. -/
def directionalMovementAt (candles : List Candle) (i : ℕ) : ℚ × ℚ :=
  let up := (candleAt candles i).high - (candleAt candles (i - 1)).high
  let down := (candleAt candles (i - 1)).low - (candleAt candles i).low
  (if down < up ∧ 0 < up then up else 0, if up < down ∧ 0 < down then down else 0)

/-- `[0.0] * n` with `f i` from position 1 on. -/
def fromSecond (n : ℕ) (f : ℕ → ℚ) : List ℚ := (List.range n).map fun i => if i = 0 then 0 else f i

def wilder (arr : List ℚ) (period : ℕ) : List ℚ :=
  let n := arr.length
  if n ≤ period then List.replicate n 0
  else
    List.replicate period 0 ++
      (arr.drop (period + 1)).scanl (fun (res x : ℚ) => res - res / period + x)
        (slice arr 1 (period + 1)).sum

structure AdxSeries where
  adx : List ℚ
  plusDi : List ℚ
  minusDi : List ℚ

def directionalIndex (smooth smoothTr : List ℚ) : List ℚ :=
  lanes (fun s st => if 0 < st then 100 * s / st else 0) smooth smoothTr

def adxSeries (candles : List Candle) (period : ℕ) : AdxSeries :=
  let n := candles.length
  let smoothTr := wilder (fromSecond n (trueRangeAt candles)) period
  let smoothPlus := wilder (fromSecond n fun i => (directionalMovementAt candles i).1) period
  let smoothMinus := wilder (fromSecond n fun i => (directionalMovementAt candles i).2) period
  let plusDi := directionalIndex smoothPlus smoothTr
  let minusDi := directionalIndex smoothMinus smoothTr
  let dx := lanes (fun p m => if 0 < p + m then 100 * |p - m| / (p + m) else 0) plusDi minusDi
  let start := period * 2
  let adx :=
    if n ≤ start then List.replicate n 0
    else
      List.replicate start 0 ++
        (dx.drop (start + 1)).scanl (fun (adx x : ℚ) => (adx * (period - 1) + x) / period)
          ((slice dx period (period * 2)).sum / period)
  ⟨adx, plusDi, minusDi⟩

/-! ## VWAP and the position in the day -/

def typical (candle : Candle) : ℚ := (candle.high + candle.low + candle.close) / 3

def rollingVwapAt (candles : List Candle) (idx period : ℕ) : Option ℚ :=
  if idx + 1 < period ∨ period = 0 then none
  else
    let window := slice candles (idx + 1 - period) (idx + 1)
    let num := (window.map fun c => typical c * c.volume).sum
    let den := (window.map fun c => c.volume).sum
    if den ≤ 0 then none else some (num / den)

inductive VwapReaction
  | reclaimUp | rejectDown
  deriving DecidableEq

def vwapReclaimRejectAt (candles : List Candle) (idx period : ℕ) : Option VwapReaction :=
  if idx < 1 then none
  else
    match rollingVwapAt candles idx period, rollingVwapAt candles (idx - 1) period with
    | some vwapNow, some vwapPrev =>
        let prevClose := (candleAt candles (idx - 1)).close
        let curClose := (candleAt candles idx).close
        if prevClose < vwapPrev ∧ vwapNow < curClose then some .reclaimUp
        else if vwapPrev < prevClose ∧ curClose < vwapNow then some .rejectDown
        else none
    | _, _ => none

def dayMs : ℤ := 86400000

def tsOf (candle : Candle) : ℤ := candle.ts.getD 0

structure DayPosition where
  dayPosition : ℚ
  dailyRangePct : ℚ

/-- The bars from `idx` backwards, up to the first one of another day. -/
def barsOfDay (candles : List Candle) (idx : ℕ) : List Candle :=
  let day := tsOf (candleAt candles idx) / dayMs
  (candles.take (idx + 1)).reverse.takeWhile fun c => tsOf c / dayMs = day

def dayPositionAt (candles : List Candle) (idx : ℕ) : Option DayPosition :=
  if tsOf (candleAt candles idx) ≤ 0 then none
  else
    let sameDay := barsOfDay candles idx
    let dayHigh := maxOf 0 (sameDay.map fun c => c.high)
    let dayLow := minOf 0 (sameDay.map fun c => c.low)
    match sameDay.getLast? with
    | none => none
    | some first =>
        if dayHigh ≤ dayLow then none
        else
          some
            { dayPosition :=
                roundDecimals 4 (((candleAt candles idx).close - dayLow) / (dayHigh - dayLow))
              dailyRangePct :=
                if first.openPrice = 0 then 0
                else roundDecimals 4 ((dayHigh - dayLow) / first.openPrice * 100) }

/-! ## Fair value gaps -/

inductive Direction
  | bull | bear
  deriving DecidableEq

structure Gap where
  low : ℚ
  high : ℚ
  mid : ℚ
  ageBars : ℕ

/-- The prices between the first and the third bar of a gap. -/
def gapBounds (direction : Direction) (first third : Candle) : Option (ℚ × ℚ) :=
  match direction with
  | .bull => if first.high < third.low then some (first.high, third.low) else none
  | .bear => if third.high < first.low then some (third.high, first.low) else none

/-- The gaps whose third bar is at most `idx`, sorted by proximity to its close. -/
def findFvg (candles : List Candle) (idx : ℕ) (direction : Direction) (lookback : ℕ) : List Gap :=
  if idx < 2 then []
  else
    let currentPrice := (candleAt candles idx).close
    let gaps := (arange (idx - lookback - 1) (idx - 1)).filterMap fun i =>
      (gapBounds direction (candleAt candles i) (candleAt candles (i + 2))).map fun bounds =>
        { low := roundDecimals 6 bounds.1
          high := roundDecimals 6 bounds.2
          mid := roundDecimals 6 ((bounds.1 + bounds.2) / 2)
          ageBars := idx - (i + 2) }
    sortOn (fun gap : Gap => |gap.mid - currentPrice|) gaps

def nearestFvgDistanceAt (candles : List Candle) (idx : ℕ) (direction : Direction)
    (lookback : ℕ) : Option ℚ :=
  match findFvg candles idx direction lookback with
  | [] => none
  | gap :: _ =>
      let price := (candleAt candles idx).close
      if price ≤ 0 then none else some (roundDecimals 4 ((gap.mid - price) / price * 100))

inductive GapReaction
  | inside | reclaim | reject
  deriving DecidableEq

def fvgReactionAt (candles : List Candle) (idx : ℕ) (direction : Direction) (lookback : ℕ) :
    Option GapReaction :=
  match findFvg candles idx direction lookback with
  | [] => none
  | gap :: _ =>
      let candle := candleAt candles idx
      if gap.low ≤ candle.close ∧ candle.close ≤ gap.high then some .inside
      else if direction = .bull ∧ candle.low ≤ gap.high ∧ gap.high < candle.close then
        some .reclaim
      else if direction = .bear ∧ gap.low ≤ candle.high ∧ candle.close < gap.low then
        some .reject
      else none

/-! ## Open interest and funding -/

def oiDeltaAt (candles : List Candle) (idx lookback : ℕ) : Option ℚ :=
  if idx < lookback then none
  else
    match (candleAt candles idx).oi, (candleAt candles (idx - lookback)).oi with
    | some now, some prev =>
        if prev ≤ 0 then none else some (roundDecimals 4 ((now / prev - 1) * 100))
    | _, _ => none

inductive Quadrant
  | newLongs | newShorts | shortCovering | longLiquidation
  deriving DecidableEq

def oiPriceQuadrantAt (candles : List Candle) (idx lookback : ℕ) : Option Quadrant :=
  match oiDeltaAt candles idx lookback with
  | none => none
  | some dOi =>
      let pNow := (candleAt candles idx).close
      let pPrev := (candleAt candles (idx - lookback)).close
      if pPrev ≤ 0 then none
      else
        let dPrice := (pNow / pPrev - 1) * 100
        if 0 ≤ dOi ∧ 0 ≤ dPrice then some .newLongs
        else if 0 ≤ dOi ∧ dPrice < 0 then some .newShorts
        else if dOi < 0 ∧ 0 ≤ dPrice then some .shortCovering
        else some .longLiquidation

inductive SqueezeRisk
  | longSqueezeRisk | shortSqueezeRisk
  deriving DecidableEq

inductive FundingLevel
  | warn | block
  deriving DecidableEq

def fundingExtremeAt (candles : List Candle) (idx : ℕ) (warn block : ℚ) :
    Option (SqueezeRisk × FundingLevel) :=
  match (candleAt candles idx).funding with
  | none => none
  | some f =>
      if |f| < warn then none
      else
        some (if 0 < f then .longSqueezeRisk else .shortSqueezeRisk,
          if block ≤ |f| then .block else .warn)

end ResearchLab.Signals
