import Mathlib
import ResearchLab.Signals.Families

/-!
# Declared history

Each strategy of the registry declares the candles it needs by formulas over its params. The
history proof takes the declared number as a lower bound: no signal before it.
-/
namespace ResearchLab.Signals
open Foundation

/-- One candidate of a declaration: an offset and multiples of params. -/
structure HistoryFormula where
  terms : List (String × ℕ)
  offset : ℕ := 0

def HistoryFormula.evaluate (formula : HistoryFormula) (params : String → Option ℕ) : ℕ :=
  max 1 (formula.offset + (formula.terms.map fun term => (params term.1).getD 0 * term.2).sum)

def hf (terms : List (String × ℕ)) : HistoryFormula := ⟨terms, 0⟩

def hfOffset (terms : List (String × ℕ)) (offset : ℕ) : HistoryFormula := ⟨terms, offset⟩

/-- A registered strategy: the windows among its defaults, its formulas and its generator. -/
structure StrategyDef where
  strategyId : String
  windowDefaults : List (String × ℕ)
  historyFormulas : List HistoryFormula
  generateSignals : List Candle → StrategyParams → List Signal

/-- `{**self.parameter_defaults, **params}`. -/
def StrategyDef.merged (definition : StrategyDef) (params : StrategyParams) (key : String) :
    Option ℕ :=
  (params.window key).or (definition.windowDefaults.lookup key)

def StrategyDef.requiredHistoryBars (definition : StrategyDef) (params : StrategyParams) : ℕ :=
  maxOf 0 (definition.historyFormulas.map fun formula => formula.evaluate (definition.merged params))

/-! ## The registry -/

def momentumBreakout : StrategyDef where
  strategyId := "momentum_breakout"
  windowDefaults := [("lookback", 20)]
  historyFormulas := [hf [("lookback", 1)]]
  generateSignals candles params := signalsMomentumBreakout (bars candles) params.toParams

def donchianBreakout : StrategyDef where
  strategyId := "donchian_breakout"
  windowDefaults := [("lookback", 20)]
  historyFormulas := [hf [("lookback", 1)]]
  generateSignals candles params := signalsDonchianBreakout (bars candles) params.toParams

def rangeBreakout : StrategyDef where
  strategyId := "range_breakout"
  windowDefaults := [("lookback", 30)]
  historyFormulas := [hf [("lookback", 1)]]
  generateSignals candles params := signalsRangeBreakout (bars candles) params.toParams

def volatilitySqueezeBreakout : StrategyDef where
  strategyId := "volatility_squeeze_breakout"
  windowDefaults := [("lookback", 20)]
  historyFormulas := [hf [("lookback", 2)]]
  generateSignals candles params :=
    signalsVolatilitySqueezeBreakout (bars candles) params.toParams

def breakoutRetest : StrategyDef where
  strategyId := "breakout_retest"
  windowDefaults := [("lookback", 20), ("retest_window", 5)]
  historyFormulas := [hf [("lookback", 1), ("retest_window", 1)]]
  generateSignals := signalsBreakoutRetest

def mainFastSwingRegime : StrategyDef where
  strategyId := "main_fast_swing_regime"
  windowDefaults :=
    [("ema_fast", 20), ("ema_slow", 50), ("adx_period", 14), ("breakout_lookback", 20),
      ("vol_period", 20)]
  historyFormulas :=
    [hf [("adx_period", 2)], hf [("ema_slow", 1)], hf [("breakout_lookback", 1)],
      hf [("vol_period", 1)]]
  generateSignals := signalsMainFastSwingRegime

def vwapReclaimReject : StrategyDef where
  strategyId := "vwap_reclaim_reject"
  windowDefaults := [("vwap_period", 20), ("ema_fast", 20), ("ema_slow", 50)]
  historyFormulas := [hfOffset [("vwap_period", 1)] 1, hf [("ema_slow", 1)]]
  generateSignals := signalsVwapReclaimReject

def fvgReclaimReject : StrategyDef where
  strategyId := "fvg_reclaim_reject"
  windowDefaults := [("fvg_lookback", 30)]
  historyFormulas := [hf [("fvg_lookback", 1)], hfOffset [] 3]
  generateSignals := signalsFvgReclaimReject

def fractalSwingBreakRetest : StrategyDef where
  strategyId := "fractal_swing_break_retest"
  windowDefaults := [("swing_lookback", 3), ("retest_window", 5)]
  historyFormulas := [hf [("swing_lookback", 2), ("retest_window", 1)]]
  generateSignals := signalsFractalSwingBreakRetest

def exhaustionFade : StrategyDef where
  strategyId := "exhaustion_fade"
  windowDefaults := [("run_lookback", 6)]
  historyFormulas := [hf [("run_lookback", 1)]]
  generateSignals := signalsExhaustionFade

def sfpLiquiditySweep : StrategyDef where
  strategyId := "sfp_liquidity_sweep"
  windowDefaults := [("lookback", 20)]
  historyFormulas := [hf [("lookback", 1)]]
  generateSignals := signalsSfpLiquiditySweep

def oiFundingSqueeze : StrategyDef where
  strategyId := "oi_funding_squeeze"
  windowDefaults := [("oi_lookback", 5)]
  historyFormulas := [hf [("oi_lookback", 1)]]
  generateSignals := signalsOiFundingSqueeze

def oiPriceQuadrant : StrategyDef where
  strategyId := "oi_price_quadrant"
  windowDefaults := [("oi_lookback", 5)]
  historyFormulas := [hf [("oi_lookback", 1)]]
  generateSignals := signalsOiPriceQuadrant

def oiPriceQuadrantContinuation : StrategyDef where
  strategyId := "oi_price_quadrant_continuation"
  windowDefaults := [("oi_lookback", 5)]
  historyFormulas := [hf [("oi_lookback", 1)]]
  generateSignals := signalsOiPriceQuadrantContinuation

def oiPriceQuadrantTrapFade : StrategyDef where
  strategyId := "oi_price_quadrant_trap_fade"
  windowDefaults := [("oi_lookback", 5)]
  historyFormulas := [hf [("oi_lookback", 1)]]
  generateSignals := signalsOiPriceQuadrantTrapFade

def pumpDumpScalp : StrategyDef where
  strategyId := "pump_dump_scalp"
  windowDefaults := [("vol_period", 20)]
  historyFormulas := [hf [("vol_period", 1)]]
  generateSignals candles params := signalsPumpDumpScalp (bars candles) params.toParams

/-- The strategies that decide on one bar and the bars before it, from a fixed bar on. -/
def scanStrategies : List StrategyDef :=
  [momentumBreakout, donchianBreakout, rangeBreakout, volatilitySqueezeBreakout,
    mainFastSwingRegime, vwapReclaimReject, exhaustionFade, sfpLiquiditySweep, oiFundingSqueeze,
    oiPriceQuadrant, oiPriceQuadrantContinuation, oiPriceQuadrantTrapFade, pumpDumpScalp]

def strategies : List StrategyDef :=
  breakoutRetest :: fractalSwingBreakRetest :: fvgReclaimReject :: scanStrategies

/-- Every formula names windows that the strategy has a default for. -/
example : ∀ definition ∈ strategies, ∀ formula ∈ definition.historyFormulas,
    ∀ term ∈ formula.terms, (definition.windowDefaults.lookup term.1).isSome := by
  decide +kernel

/-! ## The history proof -/

inductive HistoryStatus
  | invalidSignalIndex | signals | noSignalPredicate
  | noUsableRowsBeforeBoundary | signalBeforeBoundary | noSignalBeforeBoundary
  deriving DecidableEq

/-- `_signals_status` on the given candles. -/
def signalsStatus (definition : StrategyDef) (params : StrategyParams) (candles : List Candle) :
    HistoryStatus :=
  let rows := candles.length
  let signals := definition.generateSignals candles params
  if signals.any fun signal => rows - 1 < signal.idx then .invalidSignalIndex
  else if signals ≠ [] then .signals
  else .noSignalPredicate

/-- `_before_boundary_status` on the given candles. -/
def beforeBoundaryStatus (definition : StrategyDef) (params : StrategyParams)
    (candles : List Candle) : HistoryStatus :=
  if candles.length = 0 then .noUsableRowsBeforeBoundary
  else if signalsStatus definition params candles = .signals then .signalBeforeBoundary
  else .noSignalBeforeBoundary

/-- The declared history bounds the signals on these candles. -/
structure DeclaresHistory (definition : StrategyDef) (params : StrategyParams)
    (candles : List Candle) : Prop where
  silent : candles.length < definition.requiredHistoryBars params →
    definition.generateSignals candles params = []
  decisions : ∀ signal ∈ definition.generateSignals candles params,
    definition.requiredHistoryBars params - 1 ≤ signal.idx - 1
  status : candles.length < definition.requiredHistoryBars params →
    beforeBoundaryStatus definition params candles ≠ .signalBeforeBoundary

def PositiveWindows (params : StrategyParams) : Prop :=
  ∀ key window, params.window key = some window → 0 < window

/-- The geometry that the candle store asks of a bar. -/
structure PossibleOhlc (candle : Candle) : Prop where
  high : max (max candle.openPrice candle.low) candle.close ≤ candle.high
  low : candle.low ≤ min (min candle.openPrice candle.high) candle.close

/-- The params for which the formulas of the three strategies that look for more than a bar and
its past are lower bounds. -/
def BoundingParams (fractalWindow : ℕ) (definition : StrategyDef) (params : StrategyParams) :
    Prop :=
  (definition.strategyId = "breakout_retest" → params.int "retest_window" 5 ≤ 2) ∧
  (definition.strategyId = "fractal_swing_break_retest" →
    params.int "retest_window" 5 ≤ fractalWindow) ∧
  (definition.strategyId = "fvg_reclaim_reject" →
    params.int "fvg_lookback" 30 ≤ 4 ∨ params.float "max_distance_pct" 3 < 0)

/-! ## A scan from a fixed bar -/

theorem mem_signalsFrom {start : ℕ} {candles : List Candle}
    {decide : ℕ → Option (Side × String)} {signal : Signal}
    (h : signal ∈ signalsFrom start (bars candles) decide) :
    start ≤ signal.idx - 1 ∧ signal.idx < candles.length := by
  obtain ⟨idx, hidx, hdecide⟩ := List.mem_filterMap.1 h
  obtain ⟨hstart, hstop⟩ := mem_arange.1 hidx
  obtain ⟨hit, -, rfl⟩ := Option.map_eq_some_iff.1 hdecide
  rw [bars, List.length_map] at hstop
  constructor
  · exact hstart
  · change idx + 1 < candles.length
    omega

section Bound

variable {definition : StrategyDef} {params : StrategyParams} {candles : List Candle}

/-- The three properties follow from a bound on the first decision. -/
theorem declaresHistory_of_decisions
    (h : ∀ signal ∈ definition.generateSignals candles params,
      definition.requiredHistoryBars params - 1 ≤ signal.idx - 1 ∧
        signal.idx < candles.length ∧ 0 < signal.idx) :
    DeclaresHistory definition params candles := by
  have hsilent : candles.length < definition.requiredHistoryBars params →
      definition.generateSignals candles params = [] := by
    intro hshort
    refine List.eq_nil_iff_forall_not_mem.2 fun signal hsignal => ?_
    obtain ⟨hdecision, hlength, hpos⟩ := h signal hsignal
    omega
  refine ⟨hsilent, fun signal hsignal => (h signal hsignal).1, fun hshort => ?_⟩
  rw [beforeBoundaryStatus, signalsStatus, hsilent hshort]
  by_cases hrows : candles.length = 0
  · simp [hrows]
  · simp [hrows]

/-- A generator whose first decision is the declared one. -/
theorem declaresHistory_of_scan (start : ℕ)
    (hscan : ∀ signal ∈ definition.generateSignals candles params,
      start ≤ signal.idx - 1 ∧ signal.idx < candles.length)
    (hstart : definition.requiredHistoryBars params ≤ start + 1) (hpos : 0 < start) :
    DeclaresHistory definition params candles := by
  refine declaresHistory_of_decisions fun signal hsignal => ?_
  obtain ⟨hdecision, hlength⟩ := hscan signal hsignal
  omega

theorem int_pos (hparams : PositiveWindows params) {key : String} {fallback : ℕ}
    (hfallback : 0 < fallback) : 0 < params.int key fallback := by
  rw [StrategyParams.int]
  cases hwindow : params.window key with
  | none => exact hfallback
  | some window => exact hparams key window hwindow

theorem merged_getD {key : String} {fallback : ℕ}
    (hdefault : definition.windowDefaults.lookup key = some fallback) :
    (definition.merged params key).getD 0 = params.int key fallback := by
  rw [StrategyDef.merged, hdefault, StrategyParams.int]
  cases params.window key <;> rfl

theorem evaluate_window {key : String} {fallback : ℕ} (multiplier offset : ℕ)
    (hdefault : definition.windowDefaults.lookup key = some fallback) :
    (hfOffset [(key, multiplier)] offset).evaluate (definition.merged params) =
      max 1 (offset + params.int key fallback * multiplier) := by
  simp only [HistoryFormula.evaluate, hfOffset, List.map_cons, List.map_nil, List.sum_cons,
    List.sum_nil, merged_getD hdefault, Nat.add_zero]

/-- A strategy with one window in one formula. -/
theorem requiredHistoryBars_window {key : String} {fallback multiplier : ℕ}
    (hformulas : definition.historyFormulas = [hf [(key, multiplier)]])
    (hdefault : definition.windowDefaults.lookup key = some fallback) :
    definition.requiredHistoryBars params = max 1 (params.int key fallback * multiplier) := by
  rw [StrategyDef.requiredHistoryBars, hformulas]
  change (hfOffset [(key, multiplier)] 0).evaluate (definition.merged params) = _
  rw [evaluate_window multiplier 0 hdefault, Nat.zero_add]

/-- A scan over one window decides first behind it. -/
theorem declaresHistory_of_window {key : String} {fallback multiplier start : ℕ}
    (hparams : PositiveWindows params)
    (hformulas : definition.historyFormulas = [hf [(key, multiplier)]])
    (hdefault : definition.windowDefaults.lookup key = some fallback)
    (hfallback : 0 < fallback) (hmultiplier : 0 < multiplier)
    (hstart : start = multiplier * params.int key fallback)
    (hscan : ∀ signal ∈ definition.generateSignals candles params,
      start ≤ signal.idx - 1 ∧ signal.idx < candles.length) :
    DeclaresHistory definition params candles := by
  have hpos : 0 < multiplier * params.int key fallback :=
    Nat.mul_pos hmultiplier (int_pos hparams hfallback)
  refine declaresHistory_of_scan start hscan ?_ (hstart ▸ hpos)
  rw [requiredHistoryBars_window hformulas hdefault, Nat.mul_comm, ← hstart]
  omega

theorem mainFastSwingRegime_declares (hparams : PositiveWindows params) :
    DeclaresHistory mainFastSwingRegime params candles := by
  have hadx : (hf [("adx_period", 2)]).evaluate (mainFastSwingRegime.merged params) =
      max 1 (0 + params.int "adx_period" 14 * 2) := evaluate_window 2 0 rfl
  have hslow : (hf [("ema_slow", 1)]).evaluate (mainFastSwingRegime.merged params) =
      max 1 (0 + params.int "ema_slow" 50 * 1) := evaluate_window 1 0 rfl
  have hbreak : (hf [("breakout_lookback", 1)]).evaluate (mainFastSwingRegime.merged params) =
      max 1 (0 + params.int "breakout_lookback" 20 * 1) := evaluate_window 1 0 rfl
  have hvol : (hf [("vol_period", 1)]).evaluate (mainFastSwingRegime.merged params) =
      max 1 (0 + params.int "vol_period" 20 * 1) := evaluate_window 1 0 rfl
  have hpos : 0 < params.int "vol_period" 20 := int_pos hparams (by decide)
  refine declaresHistory_of_scan _ (fun _ h => mem_signalsFrom h) ?_ (lt_max_of_lt_right hpos)
  change max (max (max ((hf _).evaluate _) ((hf _).evaluate _)) ((hf _).evaluate _))
    ((hf _).evaluate _) ≤ _
  rw [hadx, hslow, hbreak, hvol]
  omega

theorem vwapReclaimReject_declares (hparams : PositiveWindows params) :
    DeclaresHistory vwapReclaimReject params candles := by
  have hvwap : (hfOffset [("vwap_period", 1)] 1).evaluate (vwapReclaimReject.merged params) =
      max 1 (1 + params.int "vwap_period" 20 * 1) := evaluate_window 1 1 rfl
  have hslow : (hf [("ema_slow", 1)]).evaluate (vwapReclaimReject.merged params) =
      max 1 (0 + params.int "ema_slow" 50 * 1) := evaluate_window 1 0 rfl
  have hpos : 0 < params.int "ema_slow" 50 := int_pos hparams (by decide)
  refine declaresHistory_of_scan _ (fun _ h => mem_signalsFrom h) ?_ (lt_max_of_lt_right hpos)
  change max ((hfOffset _ _).evaluate _) ((hf _).evaluate _) ≤ _
  rw [hvwap, hslow]
  omega

/-- A scan only looks back, and its loop starts where the formulas say. -/
theorem scan_declares (hparams : PositiveWindows params) (hmem : definition ∈ scanStrategies) :
    DeclaresHistory definition params candles := by
  simp only [scanStrategies, List.mem_cons, List.not_mem_nil, or_false] at hmem
  rcases hmem with rfl | rfl | rfl | rfl | rfl | rfl | rfl | rfl | rfl | rfl | rfl | rfl | rfl
  case inr.inr.inr.inr.inl => exact mainFastSwingRegime_declares hparams
  case inr.inr.inr.inr.inr.inl => exact vwapReclaimReject_declares hparams
  case inr.inr.inr.inl =>
    exact declaresHistory_of_window hparams rfl rfl (by decide) (by decide) rfl
      fun _ h => mem_signalsFrom h
  all_goals
    exact declaresHistory_of_window hparams rfl rfl (by decide) (by decide) (Nat.one_mul _).symm
      fun _ h => mem_signalsFrom h

end Bound

end ResearchLab.Signals
