import Mathlib
import ResearchLab.Signals.Generators

/-!
# Kernels and generators give the same signals

Every array of a kernel is the image of the decision bars, so that a kernel is a loop over them
like its generator. What remains is one decision bar at a time.
-/
namespace ResearchLab.Signals
open Foundation

variable {K : Type*} [Field K] [LinearOrder K]

/-! ## One lane of an array -/

/-- The values of a window of `width` bars that starts `back` bars before `d`. -/
def windowOf (values : List K) (back width d : ℕ) : List K :=
  gather values 0 ((arange 0 width).map fun j => d - back + j)

section
variable (values : List K) (d : List ℕ) (back width : ℕ)

theorem rowMax_windows :
    rowMax values (windows d back width) = d.map fun i => maxOf 0 (windowOf values back width i) := by
  simp only [rowMax, gatherRows, windows, List.map_map, Function.comp_def, windowOf]

theorem rowMin_windows :
    rowMin values (windows d back width) = d.map fun i => minOf 0 (windowOf values back width i) := by
  simp only [rowMin, gatherRows, windows, List.map_map, Function.comp_def, windowOf]

omit [LinearOrder K] in
theorem rowSum_windows :
    rowSum values (windows d back width) = d.map fun i => (windowOf values back width i).sum := by
  simp only [rowSum, gatherRows, windows, List.map_map, Function.comp_def, windowOf]

omit [LinearOrder K] in
theorem rowMean_windows (n : ℕ) : rowMean values (windows d back width) n =
    d.map fun i => (windowOf values back width i).sum / (n : K) := by
  simp only [rowMean, rowSum_windows, List.map_map, Function.comp_def]

end

theorem breakoutSignals_map (d : List ℕ) (p q : ℕ → Bool) (up down : String) :
    breakoutSignals d (d.map p) (d.map q) up down = d.filterMap fun i =>
      if p i then some ⟨i + 1, .long, up⟩ else if q i then some ⟨i + 1, .short, down⟩ else none := by
  induction d with
  | nil => rfl
  | cons i d ih =>
    simp only [breakoutSignals, List.map_cons, List.zip_cons_cons, List.filterMap_cons] at ih ⊢
    rw [ih]

/-- The hit of a decision bar by its masks. -/
def maskHit (p q : Bool) (up down : String) : Option (Side × String) :=
  if p then some (.long, up) else if q then some (.short, down) else none

omit [Field K] [LinearOrder K] in
/-- A kernel is the loop over its masks. -/
theorem breakoutSignals_eq_signalsFrom {candles : List (Bar K)} {start : ℕ} {p q : ℕ → Bool}
    {up down : String} {decide : ℕ → Option (Side × String)}
    (h : ∀ i, start ≤ i → i + 1 < candles.length → maskHit (p i) (q i) up down = decide i) :
    breakoutSignals (arange start (candles.length - 1))
      ((arange start (candles.length - 1)).map p) ((arange start (candles.length - 1)).map q)
      up down = signalsFrom start candles decide := by
  rw [breakoutSignals_map, signalsFrom]
  refine List.filterMap_congr fun i hi => ?_
  obtain ⟨hstart, hstop⟩ := mem_arange.1 hi
  rw [← h i hstart (by omega), maskHit]
  split_ifs <;> rfl

omit [Field K] [LinearOrder K] in
theorem signalsFrom_eq_nil {candles : List (Bar K)} {start : ℕ}
    {decide : ℕ → Option (Side × String)} (h : candles.length ≤ start + 1) :
    signalsFrom start candles decide = [] := by
  rw [signalsFrom, arange_eq_nil (by omega), List.filterMap_nil]

omit [Field K] [LinearOrder K] in
/-- The guard of a kernel only skips what the loop would not reach. -/
theorem guarded_eq_signalsFrom {candles : List (Bar K)} {start : ℕ}
    {decide : ℕ → Option (Side × String)} {guard : Prop} [Decidable guard] {kernel : List Signal}
    (hguard : guard → candles.length ≤ start + 1) (h : kernel = signalsFrom start candles decide) :
    (if guard then [] else kernel) = signalsFrom start candles decide := by
  split_ifs with hc
  · exact (signalsFrom_eq_nil (hguard hc)).symm
  · exact h

/-! ## One window of the candles -/

section
variable {candles : List (Bar K)} {i back lookback : ℕ}

omit [LinearOrder K] in
theorem windowOf_map {f : Bar K → K} (hback : back ≤ i) (hwidth : lookback ≤ back)
    (hi : i < candles.length) :
    windowOf (candles.map f) back lookback i =
      slice (candles.map f) (i - back) (i - back + lookback) :=
  gather_window (by rw [List.length_map]; omega)

theorem windowHigh_eq (hlookback : 0 < lookback) (hi : lookback ≤ i) (hlength : i < candles.length) :
    windowHigh candles i lookback =
      some (maxOf 0 (windowOf (candles.map Bar.high) lookback lookback i)) := by
  have hguard : ¬ (i < lookback ∨ lookback = 0) := by omega
  rw [windowHigh, if_neg hguard, windowOf_map hi le_rfl hlength, slice_map,
    Nat.sub_add_cancel hi]

theorem windowLow_eq (hlookback : 0 < lookback) (hi : lookback ≤ i) (hlength : i < candles.length) :
    windowLow candles i lookback =
      some (minOf 0 (windowOf (candles.map Bar.low) lookback lookback i)) := by
  have hguard : ¬ (i < lookback ∨ lookback = 0) := by omega
  rw [windowLow, if_neg hguard, windowOf_map hi le_rfl hlength, slice_map,
    Nat.sub_add_cancel hi]

omit [LinearOrder K] in
/-- The window before the previous window. -/
theorem windowOf_previous (values : List K) :
    windowOf values lookback lookback (i - lookback) = windowOf values (2 * lookback) lookback i := by
  have hstart : i - lookback - lookback = i - 2 * lookback := by omega
  simp only [windowOf, hstart]

omit [Field K] [LinearOrder K] in
theorem slice_ne_nil (f : Bar K → K) (hlookback : 0 < lookback) (hi : lookback ≤ i)
    (hlength : i < candles.length) : slice (candles.map f) (i - lookback) i ≠ [] := by
  rw [Ne, ← List.length_eq_zero_iff, length_slice (by rw [List.length_map]; omega)]
  omega

omit [LinearOrder K] in
theorem sma_eq (hlookback : 0 < lookback) (hi : lookback ≤ i) (hlength : i < candles.length) :
    sma (vols candles) i lookback =
      some ((windowOf (candles.map Bar.volume) lookback lookback i).sum / (lookback : K)) := by
  have hguard : ¬ (i < lookback ∨ lookback = 0) := by omega
  rw [windowOf_map hi le_rfl hlength, Nat.sub_add_cancel hi, sma, if_neg hguard, vols,
    if_neg (slice_ne_nil Bar.volume hlookback hi hlength),
    length_slice (by rw [List.length_map]; omega), Nat.sub_sub_self hi]

omit [LinearOrder K] in
theorem getD_map_bar (f : Bar K → K) (hf : f ⟨0, 0, 0, 0, none⟩ = 0) :
    (candles.map f).getD i 0 = f (barAt candles i) := by
  have h := List.getD_map (l := candles) (d := ⟨0, 0, 0, 0, none⟩) (n := i) f
  rwa [hf] at h

end

/-! ## One decision bar -/

theorem momentumBreakout_parity (candles : List (Bar K)) (params : Params K)
    (hlookback : 0 < params.lookback.getD 20) :
    momentumBreakoutSignals (candles.map Bar.high) (candles.map Bar.low) (candles.map Bar.close)
      (params.lookback.getD 20) (params.thresholdPct.getD 0) =
      signalsMomentumBreakout candles params := by
  simp only [momentumBreakoutSignals, signalsMomentumBreakout]
  generalize params.lookback.getD 20 = lookback at *
  generalize params.thresholdPct.getD 0 = thresholdPct
  refine guarded_eq_signalsFrom (by rw [List.length_map]; omega) ?_
  simp only [rowMax_windows, rowMin_windows, List.length_map, gather, above, below, both, neither,
    List.map_map, lanes_map, Function.comp_def]
  refine breakoutSignals_eq_signalsFrom fun i hstart hstop => ?_
  have hguard : ¬ (i < lookback ∨ candles.length ≤ i) := by omega
  rw [detectMomentumBreakout, if_neg hguard, windowHigh_eq hlookback hstart (by omega),
    windowLow_eq hlookback hstart (by omega), getD_map_bar Bar.close rfl]
  simp only [maskHit]
  grind

theorem donchianBreakout_parity (candles : List (Bar K)) (params : Params K)
    (hlookback : 0 < params.lookback.getD 20) :
    donchianBreakoutSignals (candles.map Bar.high) (candles.map Bar.low)
      (params.lookback.getD 20) = signalsDonchianBreakout candles params := by
  simp only [donchianBreakoutSignals, signalsDonchianBreakout]
  generalize params.lookback.getD 20 = lookback at *
  refine guarded_eq_signalsFrom (by rw [List.length_map]; omega) ?_
  simp only [rowMax_windows, rowMin_windows, List.length_map, gather, above, below, both, neither,
    List.map_map, lanes_map, Function.comp_def]
  refine breakoutSignals_eq_signalsFrom fun i hstart hstop => ?_
  rw [windowHigh_eq hlookback hstart (by omega), windowLow_eq hlookback hstart (by omega),
    getD_map_bar Bar.high rfl, getD_map_bar Bar.low rfl]
  simp only [maskHit]
  grind

theorem rangeBreakout_parity (candles : List (Bar K)) (params : Params K)
    (hlookback : 0 < params.lookback.getD 30) :
    rangeBreakoutSignals (candles.map Bar.high) (candles.map Bar.low) (candles.map Bar.close)
      (params.lookback.getD 30) (params.maxRangePct.getD 12) =
      signalsRangeBreakout candles params := by
  simp only [rangeBreakoutSignals, signalsRangeBreakout]
  generalize params.lookback.getD 30 = lookback at *
  generalize params.maxRangePct.getD 12 = maxRangePct
  refine guarded_eq_signalsFrom (by rw [List.length_map]; omega) ?_
  simp only [rowMax_windows, rowMin_windows, List.length_map, gather, above, below, both, neither,
    safe, positive, atMost, pctChange, List.map_map, lanes_map, Function.comp_def]
  refine breakoutSignals_eq_signalsFrom fun i hstart hstop => ?_
  rw [windowHigh_eq hlookback hstart (by omega), windowLow_eq hlookback hstart (by omega),
    getD_map_bar Bar.close rfl]
  generalize maxOf 0 (windowOf (candles.map Bar.high) lookback lookback i) = high
  generalize minOf 0 (windowOf (candles.map Bar.low) lookback lookback i) = low
  simp only [maskHit, leaves]
  grind

theorem volatilitySqueezeBreakout_parity (candles : List (Bar K)) (params : Params K)
    (hlookback : 0 < params.lookback.getD 20) :
    volatilitySqueezeBreakoutSignals (candles.map Bar.high) (candles.map Bar.low)
      (candles.map Bar.close) (params.lookback.getD 20) (params.squeezeRatio.getD (6 / 10)) =
      signalsVolatilitySqueezeBreakout candles params := by
  simp only [volatilitySqueezeBreakoutSignals, signalsVolatilitySqueezeBreakout]
  generalize params.lookback.getD 20 = lookback at *
  generalize params.squeezeRatio.getD (6 / 10) = squeezeRatio
  refine guarded_eq_signalsFrom (by rw [List.length_map]; omega) ?_
  simp only [rowMax_windows, rowMin_windows, List.length_map, gather, above, below, both, neither,
    positive, List.map_map, lanes_map, Function.comp_def]
  refine breakoutSignals_eq_signalsFrom fun i hstart hstop => ?_
  have hprevious : lookback ≤ i - lookback := by omega
  rw [windowHigh_eq hlookback (by omega) (by omega), windowLow_eq hlookback (by omega) (by omega),
    windowHigh_eq hlookback hprevious (by omega), windowLow_eq hlookback hprevious (by omega),
    getD_map_bar Bar.close rfl, windowOf_previous, windowOf_previous]
  generalize maxOf 0 (windowOf (candles.map Bar.high) lookback lookback i) = high
  generalize minOf 0 (windowOf (candles.map Bar.low) lookback lookback i) = low
  generalize maxOf 0 (windowOf (candles.map Bar.high) (2 * lookback) lookback i) = prevHigh
  generalize minOf 0 (windowOf (candles.map Bar.low) (2 * lookback) lookback i) = prevLow
  simp only [maskHit, leaves]
  grind

theorem meanReversionFade_parity (candles : List (Bar K)) (params : Params K)
    (hlookback : 0 < params.lookback.getD 5) :
    meanReversionFadeSignals (candles.map Bar.close) (params.lookback.getD 5)
      (params.movePct.getD 8) = signalsMeanReversionFade candles params := by
  simp only [meanReversionFadeSignals, signalsMeanReversionFade]
  generalize params.lookback.getD 5 = lookback at *
  generalize params.movePct.getD 8 = movePct
  refine guarded_eq_signalsFrom (by rw [List.length_map]; omega) ?_
  simp only [List.length_map, gather, both, neither, safe, positive, atLeast, atMost, pctChange,
    List.map_map, lanes_map, Function.comp_def]
  refine breakoutSignals_eq_signalsFrom fun i hstart hstop => ?_
  have hguard : ¬ (i < lookback ∨ candles.length ≤ i) := by omega
  rw [detectMeanReversionFade, if_neg hguard, getD_map_bar Bar.close rfl,
    getD_map_bar Bar.close rfl]
  simp only [maskHit]
  grind

theorem volumeShockContinuation_parity (candles : List (Bar K)) (params : Params K)
    (hlookback : 0 < params.lookback.getD 20) :
    volumeShockContinuationSignals (candles.map Bar.openPrice) (candles.map Bar.close)
      (candles.map Bar.volume) (params.lookback.getD 20) (params.volMult.getD 2)
      (params.minBodyPct.getD 3) = signalsVolumeShockContinuation candles params := by
  simp only [volumeShockContinuationSignals, signalsVolumeShockContinuation]
  generalize params.lookback.getD 20 = lookback at *
  generalize params.volMult.getD 2 = volMult
  generalize params.minBodyPct.getD 3 = minBodyPct
  refine guarded_eq_signalsFrom (by rw [List.length_map]; omega) ?_
  simp only [rowMean_windows, List.length_map, gather, both, neither, safe, positive, atLeast,
    pctChange, List.map_map, lanes_map, Function.comp_def]
  refine breakoutSignals_eq_signalsFrom fun i hstart hstop => ?_
  rw [sma_eq hlookback hstart (by omega), getD_map_bar Bar.close rfl,
    getD_map_bar Bar.openPrice rfl, vols]
  generalize (windowOf (candles.map Bar.volume) lookback lookback i).sum / (lookback : K) = avg
  simp only [maskHit, bodyPct]
  grind

theorem impulseContinuation_parity (candles : List (Bar K)) (params : Params K) :
    impulseContinuationSignals (candles.map Bar.openPrice) (candles.map Bar.high)
      (candles.map Bar.low) (candles.map Bar.close) (params.minBodyPct.getD 6)
      (params.minClosePos.getD (7 / 10)) = signalsImpulseContinuation candles params := by
  simp only [impulseContinuationSignals, signalsImpulseContinuation]
  generalize params.minBodyPct.getD 6 = minBodyPct
  generalize params.minClosePos.getD (7 / 10) = minClosePos
  refine guarded_eq_signalsFrom (by rw [List.length_map]; omega) ?_
  simp only [List.length_map, gather, both, neither, safe, positive, atLeast, atMost, pctChange,
    closePosition, List.map_map, lanes_map, Function.comp_def]
  refine breakoutSignals_eq_signalsFrom fun i hstart hstop => ?_
  rw [getD_map_bar Bar.openPrice rfl, getD_map_bar Bar.high rfl, getD_map_bar Bar.low rfl,
    getD_map_bar Bar.close rfl]
  generalize barAt candles i = cur
  simp only [maskHit, bodyPct]
  rcases le_or_gt cur.openPrice 0 with hopen | hopen
  · simp [hopen, not_lt.2 hopen]
  rcases le_or_gt (cur.high - cur.low) 0 with hrange | hrange
  · simp [hopen, not_le.2 hopen, hrange, not_lt.2 hrange]
  simp only [if_pos hopen, if_neg (not_le.2 hopen), if_pos hrange, if_neg (not_le.2 hrange)]
  generalize (cur.close / cur.openPrice - 1) * 100 = body
  generalize (cur.close - cur.low) / (cur.high - cur.low) = closePos
  grind

theorem pumpDumpScalp_parity (candles : List (Bar K)) (params : Params K)
    (hperiod : 0 < params.volPeriod.getD 20) :
    pumpDumpScalpSignals (candles.map Bar.openPrice) (candles.map Bar.high)
      (candles.map Bar.low) (candles.map Bar.close) (candles.map Bar.volume)
      (params.minBodyPct.getD 3) (params.volMult.getD 3) (params.volPeriod.getD 20)
      (params.minClosePos.getD (6 / 10)) = signalsPumpDumpScalp candles params := by
  simp only [pumpDumpScalpSignals, signalsPumpDumpScalp]
  generalize params.minBodyPct.getD 3 = minBodyPct
  generalize params.volMult.getD 3 = volMult
  generalize params.volPeriod.getD 20 = volPeriod at *
  generalize params.minClosePos.getD (6 / 10) = minClosePos
  refine guarded_eq_signalsFrom (by rw [List.length_map]; omega) ?_
  simp only [rowMean_windows, List.length_map, gather, both, neither, safe, positive, atLeast,
    atMost, pctChange, closePosition, List.map_map, lanes_map, Function.comp_def]
  refine breakoutSignals_eq_signalsFrom fun i hstart hstop => ?_
  rw [getD_map_bar Bar.openPrice rfl, getD_map_bar Bar.high rfl, getD_map_bar Bar.low rfl,
    getD_map_bar Bar.close rfl, vols, windowOf_map hstart le_rfl (by omega),
    Nat.sub_add_cancel hstart]
  generalize (slice (candles.map Bar.volume) (i - volPeriod) i).sum / (volPeriod : K) = base
  generalize (candles.map Bar.volume).getD i 0 = volume
  generalize barAt candles i = cur
  simp only [maskHit]
  rcases le_or_gt cur.openPrice 0 with hopen | hopen
  · simp [hopen, not_lt.2 hopen]
  rcases le_or_gt base 0 with hbase | hbase
  · simp [not_le.2 hopen, hbase, not_lt.2 hbase]
  have hposition : (if 0 < cur.high - cur.low then
      (cur.close - cur.low) / (if 0 < cur.high - cur.low then cur.high - cur.low else 1)
      else 5 / 10) = if 0 < cur.high - cur.low then (cur.close - cur.low) / (cur.high - cur.low)
      else 5 / 10 := by
    split_ifs <;> rfl
  simp only [if_pos hopen, if_neg (not_le.2 hopen), if_pos hbase, if_neg (not_le.2 hbase),
    hposition]
  generalize (if 0 < cur.high - cur.low then (cur.close - cur.low) / (cur.high - cur.low)
    else 5 / 10) = closePos
  generalize (cur.close / cur.openPrice - 1) * 100 = body
  generalize volume / base = volRatio
  grind

section
variable [FloorRing K]

theorem sidewaysRangeVolumeAt_eq {candles : List (Bar K)} {i lookback : ℕ} {maxRangePct : K}
    (hlookback : 0 < lookback) (hi : 2 * lookback ≤ i) (hlength : i < candles.length) :
    sidewaysRangeVolumeAt candles i lookback maxRangePct =
      let high := maxOf 0 (windowOf (candles.map Bar.high) lookback lookback i)
      let low := minOf 0 (windowOf (candles.map Bar.low) lookback lookback i)
      let volume := (windowOf (candles.map Bar.volume) lookback lookback i).sum
      let prior := (windowOf (candles.map Bar.volume) (2 * lookback) lookback i).sum
      if low ≤ 0 then none
      else
        some
          { isSideways := roundDecimals 4 ((high / low - 1) * 100) ≤ maxRangePct
            rangePct := roundDecimals 4 ((high / low - 1) * 100)
            accumulationRatio :=
              if 0 < prior then some (roundDecimals 4 (volume / prior)) else none } := by
  have hguard : ¬ (i < 2 * lookback ∨ lookback = 0) := by omega
  have hback : lookback ≤ i := by omega
  have hstop : i - 2 * lookback + lookback = i - lookback := by omega
  rw [sidewaysRangeVolumeAt, if_neg hguard, windowOf_map hback le_rfl hlength,
    windowOf_map hback le_rfl hlength, windowOf_map hback le_rfl hlength,
    windowOf_map hi (by omega) hlength, hstop, Nat.sub_add_cancel hback]
  rfl

theorem volRatioAt_eq {candles : List (Bar K)} {i period : ℕ} (hperiod : 0 < period)
    (hi : period ≤ i) (hlength : i < candles.length) :
    volRatioAt candles i period =
      let base := (windowOf (candles.map Bar.volume) period period i).sum / (period : K)
      if 0 < base then some (roundDecimals 4 ((candles.map Bar.volume).getD i 0 / base))
      else none := by
  have hguard : ¬ (i < period ∨ period = 0) := by omega
  have hne := slice_ne_nil Bar.volume hperiod hi hlength
  have hwidth : (slice (candles.map Bar.volume) (i - period) i).length = period := by
    rw [length_slice (by rw [List.length_map]; omega), Nat.sub_sub_self hi]
  rw [windowOf_map hi le_rfl hlength, Nat.sub_add_cancel hi]
  simp only [volRatioAt, baseline, if_neg hguard, vols, hne, if_false, hwidth]
  split_ifs <;> rfl

theorem rangeVolumeBreakout_parity (candles : List (Bar K)) (params : Params K)
    (hlookback : 0 < params.rangeLookback.getD 20) (hperiod : 0 < params.volPeriod.getD 20) :
    rangeVolumeBreakoutSignals (candles.map Bar.high) (candles.map Bar.low)
      (candles.map Bar.close) (candles.map Bar.volume) (params.rangeLookback.getD 20)
      (params.maxRangePct.getD 12) (params.minAccumulation.getD 1)
      (params.minVolRatio.getD (15 / 10)) (params.volPeriod.getD 20) =
      signalsRangeVolumeBreakout candles params := by
  simp only [rangeVolumeBreakoutSignals, signalsRangeVolumeBreakout]
  generalize params.rangeLookback.getD 20 = lookback at *
  generalize params.maxRangePct.getD 12 = maxRangePct
  generalize params.minAccumulation.getD 1 = minAccumulation
  generalize params.minVolRatio.getD (15 / 10) = minVolRatio
  generalize params.volPeriod.getD 20 = volPeriod at *
  refine guarded_eq_signalsFrom (by rw [List.length_map]; omega) ?_
  simp only [rowMax_windows, rowMin_windows, rowSum_windows, rowMean_windows, List.length_map,
    gather, above, below, both, safe, positive, atLeast, atMost, pctChange, List.map_map,
    lanes_map, Function.comp_def]
  refine breakoutSignals_eq_signalsFrom fun i hstart hstop => ?_
  rw [sidewaysRangeVolumeAt_eq hlookback (by omega) (by omega),
    volRatioAt_eq hperiod (by omega) (by omega), windowHigh_eq hlookback (by omega) (by omega),
    windowLow_eq hlookback (by omega) (by omega), getD_map_bar Bar.close rfl]
  generalize maxOf 0 (windowOf (candles.map Bar.high) lookback lookback i) = high
  generalize minOf 0 (windowOf (candles.map Bar.low) lookback lookback i) = low
  generalize (windowOf (candles.map Bar.volume) lookback lookback i).sum = volume
  generalize (windowOf (candles.map Bar.volume) (2 * lookback) lookback i).sum = prior
  generalize (windowOf (candles.map Bar.volume) volPeriod volPeriod i).sum / (volPeriod : K) = base
  simp only [maskHit, leaves]
  rcases le_or_gt low 0 with hlow | hlow
  · simp [hlow, not_lt.2 hlow]
  rcases le_or_gt prior 0 with hprior | hprior
  · simp [not_le.2 hlow, not_lt.2 hprior]
  rcases le_or_gt base 0 with hbase | hbase
  · simp [not_le.2 hlow, hprior, not_lt.2 hbase]
  simp only [if_pos hlow, if_neg (not_le.2 hlow), if_pos hprior, if_pos hbase]
  generalize roundDecimals 4 ((high / low - 1) * 100) = rangePct
  generalize roundDecimals 4 (volume / prior) = accumulation
  generalize roundDecimals 4 ((candles.map Bar.volume).getD i 0 / base) = volRatio
  grind

/-- The look-backs and periods of the params are positive where they are given. -/
def Params.Positive (params : Params K) : Prop :=
  (∀ n ∈ params.lookback, 0 < n) ∧ (∀ n ∈ params.rangeLookback, 0 < n) ∧
    ∀ n ∈ params.volPeriod, 0 < n

omit [Field K] [LinearOrder K] [FloorRing K] in
theorem getD_pos {o : Option ℕ} {fallback : ℕ} (h : ∀ n ∈ o, 0 < n) (hfallback : 0 < fallback) :
    0 < o.getD fallback := by
  cases o with
  | none => exact hfallback
  | some n => exact h n rfl

/-- Every kernel gives the signals of the registered generator. -/
theorem kernels_match_generators (candles : List (Bar K)) (family : Family) (params : Params K)
    (hpositive : params.Positive) :
    generateSignalsVectorized candles family params = generateSignals candles family params := by
  obtain ⟨hlookback, hrange, hperiod⟩ := hpositive
  cases family with
  | momentumBreakout => exact momentumBreakout_parity _ _ (getD_pos hlookback (by norm_num))
  | donchianBreakout => exact donchianBreakout_parity _ _ (getD_pos hlookback (by norm_num))
  | rangeBreakout => exact rangeBreakout_parity _ _ (getD_pos hlookback (by norm_num))
  | volatilitySqueezeBreakout =>
    exact volatilitySqueezeBreakout_parity _ _ (getD_pos hlookback (by norm_num))
  | meanReversionFade => exact meanReversionFade_parity _ _ (getD_pos hlookback (by norm_num))
  | volumeShockContinuation =>
    exact volumeShockContinuation_parity _ _ (getD_pos hlookback (by norm_num))
  | impulseContinuation => exact impulseContinuation_parity _ _
  | rangeVolumeBreakout =>
    exact rangeVolumeBreakout_parity _ _ (getD_pos hrange (by norm_num))
      (getD_pos hperiod (by norm_num))
  | pumpDumpScalp => exact pumpDumpScalp_parity _ _ (getD_pos hperiod (by norm_num))

end

/-- Four bars, the third of which closes above the two before it. -/
def risingBars : List (Bar ℚ) :=
  [⟨10, 11, 9, 10, some 5⟩, ⟨10, 12, 9, 11, none⟩, ⟨11, 14, 10, 13, some 8⟩, ⟨13, 14, 12, 13, some 1⟩]

theorem kernels_match_generators_risingBars :
    generateSignalsVectorized risingBars .momentumBreakout { lookback := some 2 } =
      generateSignals risingBars .momentumBreakout { lookback := some 2 } :=
  kernels_match_generators _ _ _ ⟨by simp, by simp, by simp⟩

example : generateSignals risingBars .momentumBreakout { lookback := some 2 } =
    [⟨3, .long, "breakout_high"⟩] := by decide +kernel

end ResearchLab.Signals
