import Mathlib
import ResearchLab.Signals.Features

/-!
# Regime labels

The label of a signal describes the bars before its entry bar.
-/
namespace ResearchLab.Signals
open Foundation

/-- The thresholds of the labels, the defaults overridden by those of a spec. -/
structure RegimeThresholds where
  lookback : ℕ
  lookback_pos : 0 < lookback
  volLowPct : ℚ
  volHighPct : ℚ
  trendBandPct : ℚ
  volumeWindow : ℕ
  volumeWindow_pos : 0 < volumeWindow
  volumeThinRatio : ℚ
  volumeElevatedRatio : ℚ

def regimeDefaults : RegimeThresholds where
  lookback := 20
  lookback_pos := by decide
  volLowPct := 4
  volHighPct := 9
  trendBandPct := 2
  volumeWindow := 5
  volumeWindow_pos := by decide
  volumeThinRatio := 5 / 10
  volumeElevatedRatio := 15 / 10

inductive VolatilityBucket
  | unknown | low | medium | high
  deriving DecidableEq

inductive TrendBucket
  | unknown | up | down | sideways
  deriving DecidableEq

inductive VolumeBucket
  | unknown | thin | normal | elevated
  deriving DecidableEq

structure Regime where
  volatility : VolatilityBucket
  trend : TrendBucket
  volume : VolumeBucket
  deriving DecidableEq

def volatilityBucket (window : List Candle) (p : RegimeThresholds) : VolatilityBucket :=
  let ranges : List ℚ :=
    (window.filter fun c => 0 < c.close).map fun c => (c.high - c.low) / c.close * 100
  if ranges = [] then .unknown
  else
    let avgRange := ranges.sum / ranges.length
    if avgRange < p.volLowPct then .low
    else if p.volHighPct < avgRange then .high
    else .medium

def trendBucket (window : List Candle) (p : RegimeThresholds) : TrendBucket :=
  let ma := (closes window).sum / (closes window).length
  if ma ≤ 0 then .unknown
  else
    let last := (closes window).getLastD 0
    let band := p.trendBandPct / 100
    if ma * (1 + band) < last then .up
    else if last < ma * (1 - band) then .down
    else .sideways

def volumeBucket (window : List Candle) (p : RegimeThresholds) : VolumeBucket :=
  let v := window.map fun c => c.volume
  let base := v.sum / v.length
  if base ≤ 0 then .unknown
  else
    let recentN := min p.volumeWindow v.length
    let recent := (v.drop (v.length - recentN)).sum / recentN
    let ratio := recent / base
    if ratio < p.volumeThinRatio then .thin
    else if p.volumeElevatedRatio < ratio then .elevated
    else .normal

def regimeAt (candles : List Candle) (idx : ℕ) (p : RegimeThresholds) : Regime :=
  if idx < p.lookback then ⟨.unknown, .unknown, .unknown⟩
  else
    let window := slice candles (idx - p.lookback) idx
    ⟨volatilityBucket window p, trendBucket window p, volumeBucket window p⟩

/-- `annotate_signals_with_regime`. -/
def annotateSignalsWithRegime (candles : List Candle) (signals : List Signal)
    (p : RegimeThresholds) : List (Signal × Regime) :=
  signals.map fun sig => (sig, regimeAt candles sig.idx p)

end ResearchLab.Signals
