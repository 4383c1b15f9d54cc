import Mathlib
import ResearchLab.Foundation.Prefixes
import ResearchLab.Signals.RetestHistory

/-!
# Causal features

Two lists of candles that agree up to a bar give the same features as of that bar, so a generator
that decides on one bar and its past emits the same signals up to there.
-/
namespace ResearchLab.Signals
open Foundation

/-! ## Series -/

section Series

variable {n period : ℕ}

theorem emaSeries_agree {xs ys : List ℚ} (h : AgreeTo n xs ys) :
    AgreeTo n (emaSeries xs period) (emaSeries ys period) := by
  have hleft := h.left
  have hright := h.right
  refine AgreeTo.smoothed hleft hright (by omega) (by omega) fun hxs hys => ⟨?_, fun hn => ?_⟩
  · have hperiod : period - 1 + 1 = period := by omega
    rw [hperiod]
    exact h.drop period
  · rw [(h.mono (by omega)).take]

theorem wilder_agree {xs ys : List ℚ} (h : AgreeTo n xs ys) :
    AgreeTo n (wilder xs period) (wilder ys period) := by
  have hleft := h.left
  have hright := h.right
  refine AgreeTo.smoothed hleft hright (by omega) (by omega) fun hxs hys =>
    ⟨h.drop (period + 1), fun hn => ?_⟩
  rw [h.slice 1 (by omega)]

end Series

/-! ## Bars -/

section Bars

variable {candles candles' : List Candle} {n idx lookback : ℕ}

theorem candleAt_agree (h : AgreeTo n candles candles') (hidx : idx < n) :
    candleAt candles idx = candleAt candles' idx := h.getD hidx _

theorem bars_agree (h : AgreeTo n candles candles') : AgreeTo n (bars candles) (bars candles') :=
  h.map _

theorem barAt_agree (h : AgreeTo n candles candles') (hidx : idx < n) :
    barAt (bars candles) idx = barAt (bars candles') idx := (bars_agree h).getD hidx _

theorem vols_agree (h : AgreeTo n candles candles') :
    AgreeTo n (vols (bars candles)) (vols (bars candles')) := (bars_agree h).map _

theorem windowHigh_agree (h : AgreeTo n candles candles') (hidx : idx ≤ n) :
    windowHigh (bars candles) idx lookback = windowHigh (bars candles') idx lookback := by
  rw [windowHigh, windowHigh, (bars_agree h).slice _ hidx]

theorem windowLow_agree (h : AgreeTo n candles candles') (hidx : idx ≤ n) :
    windowLow (bars candles) idx lookback = windowLow (bars candles') idx lookback := by
  rw [windowLow, windowLow, (bars_agree h).slice _ hidx]

theorem lacksVolume_agree (h : AgreeTo n candles candles') (hidx : idx < n) (mult : ℚ) :
    lacksVolume candles idx lookback mult = lacksVolume candles' idx lookback mult := by
  have hsma : sma (vols (bars candles)) idx lookback = sma (vols (bars candles')) idx lookback := by
    rw [sma, sma, (vols_agree h).slice _ hidx.le]
  rw [lacksVolume, lacksVolume, hsma, candleAt_agree h hidx]

theorem fromSecond_agree (h : AgreeTo n candles candles') {f f' : ℕ → ℚ}
    (hf : ∀ i < n, f i = f' i) :
    AgreeTo n (fromSecond candles.length f) (fromSecond candles'.length f') := by
  refine AgreeTo.range h.left h.right fun i hi => ?_
  rw [hf i hi]

theorem trueRangeAt_agree (h : AgreeTo n candles candles') (hidx : idx < n) :
    trueRangeAt candles idx = trueRangeAt candles' idx := by
  rw [trueRangeAt, trueRangeAt, candleAt_agree h hidx, candleAt_agree h (by omega)]

theorem directionalMovementAt_agree (h : AgreeTo n candles candles') (hidx : idx < n) :
    directionalMovementAt candles idx = directionalMovementAt candles' idx := by
  have hprev : candleAt candles (idx - 1) = candleAt candles' (idx - 1) :=
    candleAt_agree h (by omega)
  rw [directionalMovementAt, directionalMovementAt, candleAt_agree h hidx, hprev]

end Bars

/-! ## The directional index -/

section Adx

variable {candles candles' : List Candle} {n period : ℕ}

theorem plusDi_agree (h : AgreeTo n candles candles') :
    AgreeTo n (adxSeries candles period).plusDi (adxSeries candles' period).plusDi := by
  refine AgreeTo.lanes (wilder_agree (fromSecond_agree h fun i hi => ?_))
    (wilder_agree (fromSecond_agree h fun i hi => trueRangeAt_agree h hi)) _
  rw [directionalMovementAt_agree h hi]

theorem minusDi_agree (h : AgreeTo n candles candles') :
    AgreeTo n (adxSeries candles period).minusDi (adxSeries candles' period).minusDi := by
  refine AgreeTo.lanes (wilder_agree (fromSecond_agree h fun i hi => ?_))
    (wilder_agree (fromSecond_agree h fun i hi => trueRangeAt_agree h hi)) _
  rw [directionalMovementAt_agree h hi]

theorem adx_agree (h : AgreeTo n candles candles') :
    AgreeTo n (adxSeries candles period).adx (adxSeries candles' period).adx := by
  have hdx := (@plusDi_agree _ _ _ period h).lanes (@minusDi_agree _ _ _ period h) fun p m =>
    if 0 < p + m then 100 * |p - m| / (p + m) else 0
  have hleft := h.left
  have hright := h.right
  refine AgreeTo.smoothed hleft hright (by omega) (by omega) fun hc hc' =>
    ⟨hdx.drop (period * 2 + 1), fun hn => ?_⟩
  have hslice := hdx.slice period (show period * 2 ≤ n by omega)
  exact congrArg (fun window => window.sum / (period : ℚ)) hslice

end Adx

/-! ## Features as of a bar -/

section Features

variable {candles candles' : List Candle} {n idx lookback : ℕ} {direction : Direction}

theorem rollingVwapAt_agree (h : AgreeTo n candles candles') (hidx : idx < n) :
    rollingVwapAt candles idx lookback = rollingVwapAt candles' idx lookback := by
  rw [rollingVwapAt, rollingVwapAt, h.slice _ hidx]

theorem vwapReclaimRejectAt_agree (h : AgreeTo n candles candles') (hidx : idx < n) :
    vwapReclaimRejectAt candles idx lookback = vwapReclaimRejectAt candles' idx lookback := by
  have hprev : idx - 1 < n := by omega
  rw [vwapReclaimRejectAt, vwapReclaimRejectAt, rollingVwapAt_agree h hidx,
    rollingVwapAt_agree h hprev, candleAt_agree h hidx, candleAt_agree h hprev]

theorem dayPositionAt_agree (h : AgreeTo n candles candles') (hidx : idx < n) :
    dayPositionAt candles idx = dayPositionAt candles' idx := by
  have hday : barsOfDay candles idx = barsOfDay candles' idx := by
    rw [barsOfDay, barsOfDay, candleAt_agree h hidx, (h.mono hidx).take]
  rw [dayPositionAt, dayPositionAt, hday, candleAt_agree h hidx]

theorem findFvg_agree (h : AgreeTo n candles candles') (hidx : idx < n) :
    findFvg candles idx direction lookback = findFvg candles' idx direction lookback := by
  have hgap : ∀ i ∈ arange (idx - lookback - 1) (idx - 1),
      gapBounds direction (candleAt candles i) (candleAt candles (i + 2)) =
        gapBounds direction (candleAt candles' i) (candleAt candles' (i + 2)) := by
    intro i hi
    obtain ⟨-, hlast⟩ := mem_arange.1 hi
    rw [candleAt_agree h (by omega), candleAt_agree h (by omega)]
  simp only [findFvg, candleAt_agree h hidx]
  rw [List.filterMap_congr fun i hi => by rw [hgap i hi]]

theorem reactsTo_agree (h : AgreeTo n candles candles') (hidx : idx < n) (maxDistance : ℚ)
    (reaction : GapReaction) :
    reactsTo candles idx lookback maxDistance direction reaction =
      reactsTo candles' idx lookback maxDistance direction reaction := by
  have hnear : nearestFvgDistanceAt candles idx direction lookback =
      nearestFvgDistanceAt candles' idx direction lookback := by
    rw [nearestFvgDistanceAt, nearestFvgDistanceAt, findFvg_agree h hidx, candleAt_agree h hidx]
  have hreaction : fvgReactionAt candles idx direction lookback =
      fvgReactionAt candles' idx direction lookback := by
    rw [fvgReactionAt, fvgReactionAt, findFvg_agree h hidx, candleAt_agree h hidx]
  rw [reactsTo, reactsTo, hnear, hreaction]

theorem oiDeltaAt_agree (h : AgreeTo n candles candles') (hidx : idx < n) :
    oiDeltaAt candles idx lookback = oiDeltaAt candles' idx lookback := by
  rw [oiDeltaAt, oiDeltaAt, candleAt_agree h hidx, candleAt_agree h (by omega)]

theorem oiPriceQuadrantAt_agree (h : AgreeTo n candles candles') (hidx : idx < n) :
    oiPriceQuadrantAt candles idx lookback = oiPriceQuadrantAt candles' idx lookback := by
  have hprev : candleAt candles (idx - lookback) = candleAt candles' (idx - lookback) :=
    candleAt_agree h (by omega)
  rw [oiPriceQuadrantAt, oiPriceQuadrantAt, oiDeltaAt_agree h hidx, candleAt_agree h hidx, hprev]

theorem fundingExtremeAt_agree (h : AgreeTo n candles candles') (hidx : idx < n) (warn block : ℚ) :
    fundingExtremeAt candles idx warn block = fundingExtremeAt candles' idx warn block := by
  rw [fundingExtremeAt, fundingExtremeAt, candleAt_agree h hidx]

end Features

/-! ## Generators that decide on one bar -/

section Scan

variable {candles candles' : List Candle} {n start i : ℕ} {params : StrategyParams}

/-- The signals up to `n` are the same. -/
def SameSignals (n : ℕ) (signals signals' : List Signal) : Prop :=
  ∀ signal : Signal, signal.idx ≤ n → (signal ∈ signals ↔ signal ∈ signals')

theorem mem_signalsFrom_iff {decide : ℕ → Option (Side × String)} {signal : Signal} :
    signal ∈ signalsFrom start (bars candles) decide ↔
      ∃ idx, start ≤ idx ∧ idx + 1 < candles.length ∧ signal.idx = idx + 1 ∧
        decide idx = some (signal.side, signal.reason) := by
  simp only [signalsFrom, List.mem_filterMap, mem_arange, bars, List.length_map,
    Option.map_eq_some_iff]
  constructor
  · rintro ⟨idx, ⟨hstart, hstop⟩, hit, hhit, rfl⟩
    exact ⟨idx, hstart, by omega, rfl, hhit⟩
  · rintro ⟨idx, hstart, hstop, hidx, hhit⟩
    exact ⟨idx, ⟨hstart, by omega⟩, _, hhit, by rw [← hidx]⟩

/-- A decision that looks back only gives the same signals. -/
theorem signalsFrom_agree {decide decide' : ℕ → Option (Side × String)}
    (hleft : n < candles.length) (hright : n < candles'.length)
    (h : ∀ idx < n, start ≤ idx → decide idx = decide' idx) :
    SameSignals n (signalsFrom start (bars candles) decide)
      (signalsFrom start (bars candles') decide') := by
  intro signal hsignal
  rw [mem_signalsFrom_iff, mem_signalsFrom_iff]
  constructor
  · rintro ⟨idx, hstart, -, hidx, hdecide⟩
    exact ⟨idx, hstart, by omega, hidx, (h idx (by omega) hstart).symm.trans hdecide⟩
  · rintro ⟨idx, hstart, -, hidx, hdecide⟩
    exact ⟨idx, hstart, by omega, hidx, (h idx (by omega) hstart).trans hdecide⟩

end Scan

section Strategies

variable {candles candles' : List Candle} {n : ℕ} {params : StrategyParams}

theorem detectMomentumBreakout_agree (h : AgreeTo n candles candles') {idx : ℕ} (hidx : idx < n)
    (lookback : ℕ) (thresholdPct : ℚ) :
    detectMomentumBreakout (bars candles) idx lookback thresholdPct =
      detectMomentumBreakout (bars candles') idx lookback thresholdPct := by
  have hleft : ¬ (bars candles).length ≤ idx := by
    have := (bars_agree h).left
    omega
  have hright : ¬ (bars candles').length ≤ idx := by
    have := (bars_agree h).right
    omega
  simp only [detectMomentumBreakout, hleft, hright, barAt_agree h hidx, windowHigh_agree h hidx.le,
    windowLow_agree h hidx.le]

theorem mainFastSwingRegime_agree (h : AgreeTo n candles candles') (hleft : n < candles.length)
    (hright : n < candles'.length) :
    SameSignals n (signalsMainFastSwingRegime candles params)
      (signalsMainFastSwingRegime candles' params) := by
  refine signalsFrom_agree hleft hright fun idx hidx _ => ?_
  have hvol (period : ℕ) : regimeVolRatio (vols (bars candles)) idx period =
      regimeVolRatio (vols (bars candles')) idx period := by
    rw [regimeVolRatio, regimeVolRatio, (vols_agree h).slice _ hidx.le, (vols_agree h).getD hidx]
  have hema (period : ℕ) : (emaSeries (closes candles) period).getD idx 0 =
      (emaSeries (closes candles') period).getD idx 0 := (emaSeries_agree (h.map _)).getD hidx 0
  have hclose : (closes candles).getD idx 0 = (closes candles').getD idx 0 := (h.map _).getD hidx 0
  simp only [hvol, hema, hclose, (adx_agree h).getD hidx, (plusDi_agree h).getD hidx,
    (minusDi_agree h).getD hidx, windowHigh_agree h hidx.le, windowLow_agree h hidx.le]

theorem vwapReclaimReject_agree (h : AgreeTo n candles candles') (hleft : n < candles.length)
    (hright : n < candles'.length) :
    SameSignals n (signalsVwapReclaimReject candles params)
      (signalsVwapReclaimReject candles' params) := by
  refine signalsFrom_agree hleft hright fun idx hidx _ => ?_
  have hema (period : ℕ) : (emaSeries (closes candles) period).getD idx 0 =
      (emaSeries (closes candles') period).getD idx 0 := (emaSeries_agree (h.map _)).getD hidx 0
  simp only [hema, dayPositionAt_agree h hidx, vwapReclaimRejectAt_agree h hidx]

/-- The generators without a retest look back only. -/
theorem scan_agree {definition : StrategyDef} (h : AgreeTo n candles candles')
    (hleft : n < candles.length) (hright : n < candles'.length)
    (hmem : definition = fvgReclaimReject ∨ definition ∈ scanStrategies) :
    SameSignals n (definition.generateSignals candles params)
      (definition.generateSignals candles' params) := by
  simp only [scanStrategies, List.mem_cons, List.not_mem_nil, or_false] at hmem
  rcases hmem with rfl | rfl | rfl | rfl | rfl | rfl | rfl | rfl | rfl | rfl | rfl | rfl | rfl | rfl
  case inr.inr.inr.inr.inr.inl => exact mainFastSwingRegime_agree h hleft hright
  case inr.inr.inr.inr.inr.inr.inl => exact vwapReclaimReject_agree h hleft hright
  all_goals
    refine signalsFrom_agree hleft hright fun idx hidx _ => ?_
    simp (disch := omega) only [reactsTo_agree h, detectMomentumBreakout_agree h,
      windowHigh_agree h, windowLow_agree h, barAt_agree h, candleAt_agree h,
      lacksVolume_agree h, oiDeltaAt_agree h, oiPriceQuadrantAt_agree h, fundingExtremeAt_agree h,
      (vols_agree h).getD, (vols_agree h).slice]

end Strategies

end ResearchLab.Signals
