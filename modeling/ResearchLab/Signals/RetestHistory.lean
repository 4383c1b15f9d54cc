import Mathlib
import ResearchLab.Signals.History

/-!
# The history of the retests

A retest generator may decide one bar behind a break, and the gap reaction on the bar behind the
first gap. The formulas add the whole retest window, or take the whole gap window.
-/
namespace ResearchLab.Signals
open Foundation

/-! ## The loop -/

section Loop

variable {attempt : ℕ → Option (ℕ × Side × String)} {stop : ℕ}

/-- Every signal of the loop is the retest of a break at a bar the loop comes to. -/
theorem mem_retestLoop {first : ℕ} {signal : Signal}
    (hforward : ∀ idx < stop, ∀ hit, attempt idx = some hit → idx < hit.1) :
    ∀ rounds idx, first ≤ idx → signal ∈ retestLoop attempt stop rounds idx →
      ∃ i hit, first ≤ i ∧ i < stop ∧ attempt i = some hit ∧ signal.idx = hit.1 + 1 := by
  intro rounds
  induction rounds with
  | zero =>
    intro idx _ h
    cases h
  | succ rounds ih =>
    intro idx hidx h
    rw [retestLoop] at h
    by_cases hstop : stop ≤ idx
    · rw [if_pos hstop] at h
      cases h
    rw [if_neg hstop] at h
    cases hattempt : attempt idx with
    | none =>
      rw [hattempt] at h
      exact ih (idx + 1) (by omega) h
    | some hit =>
      rw [hattempt] at h
      have hlt := hforward idx (not_le.1 hstop) hit hattempt
      rcases List.mem_cons.1 h with rfl | h
      · exact ⟨idx, hit, hidx, not_le.1 hstop, hattempt, rfl⟩
      · exact ih (hit.1 + 1) (by omega) h

/-- The first attempt with a retest gives the first signal. -/
theorem retestLoop_eq_cons {rounds idx hit : ℕ} {side : Side} {reason : String} (hidx : idx < stop)
    (hattempt : attempt idx = some (hit, side, reason)) :
    retestLoop attempt stop (rounds + 1) idx =
      ⟨hit + 1, side, reason⟩ :: retestLoop attempt stop rounds (hit + 1) := by
  rw [retestLoop, if_neg (not_le.2 hidx), hattempt]

theorem retestLoop_eq_next {rounds idx : ℕ} (hidx : idx < stop) (hattempt : attempt idx = none) :
    retestLoop attempt stop (rounds + 1) idx = retestLoop attempt stop rounds (idx + 1) := by
  rw [retestLoop, if_neg (not_le.2 hidx), hattempt]

end Loop

section Attempt

variable {candles : List Candle} {retestWindow idx : ℕ} {tolPct : ℚ} {breaks : List Break}

theorem findRetest_bounds {level : ℚ} {side : Side} {hit : ℕ}
    (h : findRetest candles idx retestWindow level tolPct side = some hit) :
    idx < hit ∧ hit + 1 < candles.length := by
  have hmem := mem_arange.1 (List.mem_of_find?_eq_some h)
  omega

theorem attemptAt_bounds {hit : ℕ × Side × String}
    (h : attemptAt candles retestWindow tolPct idx breaks = some hit) :
    idx < hit.1 ∧ hit.1 + 1 < candles.length := by
  obtain ⟨b, -, hb⟩ := List.exists_of_findSome?_eq_some h
  obtain ⟨j, hj, rfl⟩ := Option.map_eq_some_iff.1 hb
  exact findRetest_bounds hj

@[simp] theorem attemptAt_nil : attemptAt candles retestWindow tolPct idx [] = none := rfl

end Attempt

/-- Every signal of a retest generator is decided behind a break at its first bar or later. -/
theorem retest_decision {candles : List Candle} {retestWindow : ℕ} {tolPct : ℚ}
    {breaks : ℕ → List Break} {first rounds : ℕ} {signal : Signal}
    (h : signal ∈ retestLoop (fun idx => attemptAt candles retestWindow tolPct idx (breaks idx))
      (candles.length - 1) rounds first) :
    ∃ i, first ≤ i ∧ i + 1 < candles.length ∧ breaks i ≠ [] ∧ i + 1 < signal.idx ∧
      signal.idx < candles.length := by
  obtain ⟨i, hit, hfirst, hstop, hattempt, hsignal⟩ :=
    mem_retestLoop (fun idx _ hit hhit => (attemptAt_bounds hhit).1) rounds first le_rfl h
  have hbounds := attemptAt_bounds hattempt
  refine ⟨i, hfirst, by omega, fun hnil => ?_, by omega, by omega⟩
  rw [hnil, attemptAt_nil] at hattempt
  cases hattempt

/-! ## What the formulas ask for -/

section Required

variable {params : StrategyParams}

theorem breakoutRetest_required (hparams : PositiveWindows params) :
    breakoutRetest.requiredHistoryBars params =
      params.int "lookback" 20 + params.int "retest_window" 5 := by
  have hlookback : (breakoutRetest.merged params "lookback").getD 0 = params.int "lookback" 20 :=
    merged_getD rfl
  have hretest : (breakoutRetest.merged params "retest_window").getD 0 =
      params.int "retest_window" 5 := merged_getD rfl
  have hpos : 0 < params.int "lookback" 20 := int_pos hparams (by decide)
  change max 1 (0 + ((breakoutRetest.merged params "lookback").getD 0 * 1 +
    ((breakoutRetest.merged params "retest_window").getD 0 * 1 + 0))) = _
  rw [hlookback, hretest]
  omega

theorem fractalSwingBreakRetest_required (hparams : PositiveWindows params) :
    fractalSwingBreakRetest.requiredHistoryBars params =
      params.int "swing_lookback" 3 * 2 + params.int "retest_window" 5 := by
  have hlookback : (fractalSwingBreakRetest.merged params "swing_lookback").getD 0 =
      params.int "swing_lookback" 3 := merged_getD rfl
  have hretest : (fractalSwingBreakRetest.merged params "retest_window").getD 0 =
      params.int "retest_window" 5 := merged_getD rfl
  have hpos : 0 < params.int "swing_lookback" 3 := int_pos hparams (by decide)
  change max 1 (0 + ((fractalSwingBreakRetest.merged params "swing_lookback").getD 0 * 2 +
    ((fractalSwingBreakRetest.merged params "retest_window").getD 0 * 1 + 0))) = _
  rw [hlookback, hretest]
  omega

theorem fvgReclaimReject_required :
    fvgReclaimReject.requiredHistoryBars params = max (params.int "fvg_lookback" 30) 3 := by
  have hgap : (hf [("fvg_lookback", 1)]).evaluate (fvgReclaimReject.merged params) =
      max 1 (0 + params.int "fvg_lookback" 30 * 1) := evaluate_window 1 0 rfl
  change max ((hf _).evaluate _) 3 = _
  rw [hgap]
  omega

end Required

/-! ## Where the formulas are bounds -/

section Bounding

variable {params : StrategyParams} {candles : List Candle}

theorem breakoutRetest_declares (hparams : PositiveWindows params)
    (hwindow : params.int "retest_window" 5 ≤ 2) :
    DeclaresHistory breakoutRetest params candles := by
  refine declaresHistory_of_decisions fun signal hsignal => ?_
  obtain ⟨i, hfirst, -, -, hdecision, hlength⟩ := retest_decision hsignal
  rw [breakoutRetest_required hparams]
  omega

theorem fractalSwingBreakRetest_declares (hparams : PositiveWindows params)
    (hwindow : params.int "retest_window" 5 ≤ 2) :
    DeclaresHistory fractalSwingBreakRetest params candles := by
  refine declaresHistory_of_decisions fun signal hsignal => ?_
  obtain ⟨i, hfirst, -, -, hdecision, hlength⟩ := retest_decision hsignal
  rw [fractalSwingBreakRetest_required hparams]
  omega

end Bounding

/-! ## Pivots -/

section Pivots

variable {values : List ℚ} {lookback asOf : ℕ} {isPivot : ℚ → List ℚ → Bool} {level : ℚ}

theorem mem_confirmedPivots {pivot : ℕ × ℚ} :
    pivot ∈ confirmedPivots values lookback isPivot ↔
      ∃ i, lookback ≤ i ∧ i + lookback < values.length ∧
        isPivot (values.getD i 0) (slice values (i - lookback) (i + lookback + 1)) = true ∧
        pivot = (i + lookback, values.getD i 0) := by
  simp only [confirmedPivots, List.mem_filterMap, mem_arange, Option.ite_none_right_eq_some,
    Option.some.injEq]
  constructor
  · rintro ⟨i, ⟨hfirst, hlast⟩, hpivot, rfl⟩
    exact ⟨i, hfirst, by omega, hpivot, rfl⟩
  · rintro ⟨i, hfirst, hlast, hpivot, rfl⟩
    exact ⟨i, ⟨hfirst, by omega⟩, hpivot, rfl⟩

/-- The first bar with `lookback` bars on each side, when it is a pivot. -/
theorem confirmedPivots_eq_cons (hlength : lookback + lookback < values.length)
    (hpivot : isPivot (values.getD lookback 0) (slice values 0 (lookback + lookback + 1)) = true) :
    ∃ rest, confirmedPivots values lookback isPivot =
      (lookback + lookback, values.getD lookback 0) :: rest := by
  have hrange := arange_eq_cons (show lookback < values.length - lookback by omega)
  rw [confirmedPivots, hrange, List.filterMap_cons]
  simp only [Nat.sub_self, hpivot, if_true]
  exact ⟨_, rfl⟩

theorem lastLevel_mem {pivots : List (ℕ × ℚ)} (h : lastLevel pivots asOf = some level) :
    ∃ confirmBar ≤ asOf, (confirmBar, level) ∈ pivots := by
  obtain ⟨pivot, hpivot, rfl⟩ := Option.map_eq_some_iff.1 h
  have hmem := List.mem_of_getLast? hpivot
  exact ⟨pivot.1, by simpa using List.mem_takeWhile_imp hmem, List.takeWhile_subset _ hmem⟩

theorem lastLevel_eq {pivots : List (ℕ × ℚ)} {first : ℕ × ℚ} {rest : List (ℕ × ℚ)}
    (hfirst : pivots = first :: rest) (hconfirmed : first.1 ≤ asOf)
    (hlevel : ∀ pivot ∈ pivots, pivot.1 ≤ asOf → pivot.2 = level) :
    lastLevel pivots asOf = some level := by
  have hsome : (lastLevel pivots asOf).isSome := by
    rw [lastLevel, Option.isSome_map, hfirst,
      List.takeWhile_cons_of_pos (by simpa using hconfirmed), List.getLast?_cons]
    rfl
  obtain ⟨found, hfound⟩ := Option.isSome_iff_exists.1 hsome
  obtain ⟨confirmBar, hle, hmem⟩ := lastLevel_mem hfound
  rw [hfound, ← hlevel _ hmem hle]

end Pivots

/-! ## Bars with a possible geometry -/

section Geometry

variable {candles : List Candle} {lookback : ℕ}

theorem possibleOhlc_candleAt (hohlc : ∀ candle ∈ candles, PossibleOhlc candle) {idx : ℕ}
    (hidx : idx < candles.length) :
    (candleAt candles idx).low ≤ (candleAt candles idx).close ∧
      (candleAt candles idx).close ≤ (candleAt candles idx).high := by
  have hmem : candleAt candles idx ∈ candles := by
    rw [candleAt, List.getD_eq_getElem _ _ hidx]
    exact List.getElem_mem hidx
  obtain ⟨hhigh, hlow⟩ := hohlc _ hmem
  exact ⟨hlow.trans (min_le_right _ _), (le_max_right _ _).trans hhigh⟩

/-- The close of the last bar of the first pivot window does not leave the pivot. -/
theorem fractalBreaks_first (hohlc : ∀ candle ∈ candles, PossibleOhlc candle)
    (hlength : lookback * 2 < candles.length) :
    fractalBreaks candles lookback (lookback * 2) = [] := by
  obtain ⟨hlow, hhigh⟩ := possibleOhlc_candleAt hohlc hlength
  have hslice {f : Candle → ℚ} : f (candleAt candles (lookback * 2)) ∈
      slice (candles.map f) 0 (lookback + lookback + 1) := by
    have hbar : (slice candles 0 (lookback + lookback + 1))[lookback * 2]? =
        some (candleAt candles (lookback * 2)) := by
      rw [slice, List.drop_zero, List.getElem?_take_of_lt (by omega), candleAt,
        List.getElem?_eq_getElem hlength, List.getD_eq_getElem _ _ hlength]
    rw [slice_map]
    exact List.mem_map_of_mem (List.mem_of_getElem? hbar)
  have hpivot {values : List ℚ} {isPivot : ℚ → List ℚ → Bool} {level : ℚ}
      (h : lastLevel (confirmedPivots values lookback isPivot) (lookback * 2) = some level) :
      isPivot level (slice values 0 (lookback + lookback + 1)) = true := by
    obtain ⟨confirmBar, hconfirmed, hmem⟩ := lastLevel_mem h
    obtain ⟨i, hfirst, -, hlevel, heq⟩ := mem_confirmedPivots.1 hmem
    obtain ⟨rfl, rfl⟩ := Prod.mk.inj heq
    obtain rfl : i = lookback := by omega
    rwa [Nat.sub_self] at hlevel
  have hres : ∀ res, lastLevel (confirmedHighs candles lookback) (lookback * 2) = some res →
      ¬ res < (candleAt candles (lookback * 2)).close := by
    intro res h
    have hmax := of_decide_eq_true (hpivot h)
    exact not_lt.2 (hhigh.trans ((le_maxOf (hslice (f := fun c => c.high))).trans hmax))
  have hsup : ∀ sup, lastLevel (confirmedLows candles lookback) (lookback * 2) = some sup →
      ¬ (candleAt candles (lookback * 2)).close < sup := by
    intro sup h
    have hmin := of_decide_eq_true (hpivot h)
    exact not_lt.2 ((hmin.trans (minOf_le (hslice (f := fun c => c.low)))).trans hlow)
  have hhighs : (lastLevel (confirmedHighs candles lookback) (lookback * 2)).filter
      (fun res => decide (res < (candleAt candles (lookback * 2)).close)) = none := by
    simpa [Option.filter_eq_none_iff] using hres
  have hlows : (lastLevel (confirmedLows candles lookback) (lookback * 2)).filter
      (fun sup => decide ((candleAt candles (lookback * 2)).close < sup)) = none := by
    simpa [Option.filter_eq_none_iff] using hsup
  simp only [fractalBreaks, hhighs, hlows]
  rfl

theorem fractalSwingBreakRetest_declares_of_ohlc {params : StrategyParams}
    (hohlc : ∀ candle ∈ candles, PossibleOhlc candle) (hparams : PositiveWindows params)
    (hwindow : params.int "retest_window" 5 ≤ 3) :
    DeclaresHistory fractalSwingBreakRetest params candles := by
  refine declaresHistory_of_decisions fun signal hsignal => ?_
  obtain ⟨i, hfirst, hlast, hbreaks, hdecision, hlength⟩ := retest_decision hsignal
  have hne : i ≠ params.int "swing_lookback" 3 * 2 := by
    rintro rfl
    exact hbreaks (fractalBreaks_first hohlc (by omega))
  rw [fractalSwingBreakRetest_required hparams]
  omega

end Geometry

/-! ## A break and its retest behind flat bars -/

def flatBar : Candle := ⟨⟨100, 100, 100, 100, none⟩, none, none, none⟩

def breakBar (low : ℚ) : Candle := ⟨⟨100, 100, low, 90, none⟩, none, none, none⟩

/-- It reaches back into the tolerance of the level. -/
def retestBar (tolPct : ℚ) : Candle := ⟨⟨90, 100 + |tolPct|, 90, 90, none⟩, none, none, none⟩

def flatThenRetest (flat : ℕ) (low tolPct : ℚ) : List Candle :=
  List.replicate flat flatBar ++ [breakBar low, retestBar tolPct, retestBar tolPct]

section Flat

variable {flat idx lookback retestWindow : ℕ} {low tolPct : ℚ}

@[simp] theorem length_flatThenRetest : (flatThenRetest flat low tolPct).length = flat + 3 := by
  simp [flatThenRetest]

theorem candleAt_flat (h : idx < flat) : candleAt (flatThenRetest flat low tolPct) idx = flatBar := by
  rw [candleAt, flatThenRetest, List.getD_eq_getElem?_getD,
    List.getElem?_append_left (by simpa using h), List.getElem?_replicate, if_pos h]
  rfl

theorem candleAt_break : candleAt (flatThenRetest flat low tolPct) flat = breakBar low := by
  rw [candleAt, flatThenRetest, List.getD_eq_getElem?_getD,
    List.getElem?_append_right (by simp)]
  simp

theorem candleAt_retest : candleAt (flatThenRetest flat low tolPct) (flat + 1) = retestBar tolPct := by
  rw [candleAt, flatThenRetest, List.getD_eq_getElem?_getD,
    List.getElem?_append_right (by simp)]
  simp

/-- The bar behind the break retests the level. -/
theorem attemptAt_flat {reason : String} (hwindow : 0 < retestWindow) :
    attemptAt (flatThenRetest flat low tolPct) retestWindow tolPct flat [⟨.short, 100, reason⟩] =
      some (flat + 1, .short, reason) := by
  have hretests : retests (flatThenRetest flat low tolPct) .short 100 tolPct (flat + 1) = true := by
    have habs := neg_abs_le tolPct
    rw [retests, candleAt_retest]
    refine decide_eq_true ⟨?_, by norm_num [retestBar]⟩
    change 100 - 100 * tolPct / 100 ≤ 100 + |tolPct|
    linarith
  have hrange : arange (flat + 1) (min (flat + 1 + retestWindow)
      ((flatThenRetest flat low tolPct).length - 1)) = [flat + 1] := by
    rw [length_flatThenRetest, arange_eq_cons (by omega), arange_eq_nil (by omega)]
  have hfind : findRetest (flatThenRetest flat low tolPct) flat retestWindow 100 tolPct .short =
      some (flat + 1) := by
    rw [findRetest, hrange, List.find?_cons_of_pos hretests]
  rw [attemptAt, List.findSome?_cons, hfind]
  rfl

theorem bars_take_flat :
    (bars (flatThenRetest flat low tolPct)).take flat = List.replicate flat flatBar.toBar := by
  rw [bars, ← List.map_take, flatThenRetest, List.take_left' (by simp), List.map_replicate]

/-- The window before the break is flat. -/
theorem breakoutBreaks_flat (hflat : 0 < flat) :
    breakoutBreaks (flatThenRetest flat low tolPct) flat flat =
      [⟨.short, 100, "retest_hold_resistance"⟩] := by
  have hwindow : slice (bars (flatThenRetest flat low tolPct)) (flat - flat) flat =
      List.replicate flat flatBar.toBar := by
    rw [slice, Nat.sub_self, List.drop_zero, Nat.sub_zero, bars_take_flat]
  have hne (x : ℚ) : List.replicate flat x ≠ [] := by
    simpa using hflat.ne'
  have hhigh : windowHigh (bars (flatThenRetest flat low tolPct)) flat flat = some 100 := by
    rw [windowHigh, if_neg (by omega), hwindow, List.map_replicate]
    exact congrArg some (List.eq_of_mem_replicate (maxOf_mem (hne _)))
  have hlow : windowLow (bars (flatThenRetest flat low tolPct)) flat flat = some 100 := by
    rw [windowLow, if_neg (by omega), hwindow, List.map_replicate]
    exact congrArg some (List.eq_of_mem_replicate (minOf_mem (hne _)))
  rw [breakoutBreaks, hhigh, hlow, candleAt_break]
  norm_num [breakBar]

section Levels

variable {f : Candle → ℚ}

theorem getD_map_candles {candles : List Candle} (h : idx < candles.length) :
    (candles.map f).getD idx 0 = f (candleAt candles idx) := by
  rw [candleAt, List.getD_eq_getElem _ _ (by simpa using h), List.getElem_map,
    List.getD_eq_getElem _ _ h]

/-- The first pivot window shows flat bars, and at its end perhaps the break. -/
theorem mem_first_window {x : ℚ} (hlookback : lookback * 2 ≤ flat)
    (h : x ∈ slice ((flatThenRetest flat low tolPct).map f) 0 (lookback + lookback + 1)) :
    x = f flatBar ∨ lookback * 2 = flat ∧ x = f (breakBar low) := by
  rw [slice, List.drop_zero] at h
  obtain ⟨k, hk, rfl⟩ := List.mem_iff_getElem.1 h
  rw [List.length_take] at hk
  rw [List.getElem_take, List.getElem_map, ← List.getD_eq_getElem _ ⟨⟨0, 0, 0, 0, none⟩, none, none, none⟩]
  change f (candleAt (flatThenRetest flat low tolPct) k) = _ ∨ _
  rcases (show k < flat ∨ k = flat by omega) with hlt | rfl
  · exact .inl (congrArg f (candleAt_flat hlt))
  · exact .inr ⟨by omega, congrArg f candleAt_break⟩

/-- Up to the break every confirmed level is that of the flat bars. -/
theorem lastLevel_flat {asOf : ℕ} {isPivot : ℚ → List ℚ → Bool} (hpos : 0 < lookback)
    (hfirst : lookback * 2 ≤ asOf) (hasOf : asOf ≤ flat)
    (hpivot : isPivot (f flatBar)
      (slice ((flatThenRetest flat low tolPct).map f) 0 (lookback + lookback + 1)) = true) :
    lastLevel (confirmedPivots ((flatThenRetest flat low tolPct).map f) lookback isPivot) asOf =
      some (f flatBar) := by
  have hlevel {i : ℕ} (hi : i < flat) :
      ((flatThenRetest flat low tolPct).map f).getD i 0 = f flatBar := by
    rw [getD_map_candles (by rw [length_flatThenRetest]; omega), candleAt_flat hi]
  have hlength : lookback + lookback < ((flatThenRetest flat low tolPct).map f).length := by
    rw [List.length_map, length_flatThenRetest]
    omega
  have hfirstPivot : isPivot (((flatThenRetest flat low tolPct).map f).getD lookback 0)
      (slice ((flatThenRetest flat low tolPct).map f) 0 (lookback + lookback + 1)) = true := by
    rwa [hlevel (by omega)]
  obtain ⟨rest, hrest⟩ := confirmedPivots_eq_cons hlength hfirstPivot
  refine lastLevel_eq hrest (by omega) fun pivot hmem hconfirmed => ?_
  obtain ⟨i, -, -, -, rfl⟩ := mem_confirmedPivots.1 hmem
  exact hlevel (by omega)

end Levels

theorem lastLevels_flat {asOf : ℕ} (hpos : 0 < lookback) (hfirst : lookback * 2 ≤ asOf)
    (hasOf : asOf ≤ flat) (hlow : lookback * 2 = flat → low = 100) :
    lastLevel (confirmedHighs (flatThenRetest flat low tolPct) lookback) asOf = some 100 ∧
      lastLevel (confirmedLows (flatThenRetest flat low tolPct) lookback) asOf = some 100 := by
  have hne (f : Candle → ℚ) :
      slice ((flatThenRetest flat low tolPct).map f) 0 (lookback + lookback + 1) ≠ [] := by
    rw [← List.length_pos_iff, length_slice (by rw [List.length_map, length_flatThenRetest]; omega)]
    omega
  constructor
  · refine lastLevel_flat hpos hfirst hasOf (decide_eq_true ?_)
    rcases mem_first_window (by omega) (maxOf_mem (hne _)) with hflat | ⟨-, hbreak⟩
    · exact hflat.le
    · exact hbreak.le
  · refine lastLevel_flat hpos hfirst hasOf (decide_eq_true ?_)
    rcases mem_first_window (by omega) (minOf_mem (hne _)) with hflat | ⟨heq, hbreak⟩
    · exact hflat.ge
    · exact (hbreak.trans (hlow heq)).ge

theorem fractalBreaks_flat (hpos : 0 < lookback) (hfirst : lookback * 2 ≤ flat)
    (hlow : lookback * 2 = flat → low = 100) :
    fractalBreaks (flatThenRetest flat low tolPct) lookback flat =
      [⟨.short, 100, "fractal_break_retest_short"⟩] := by
  obtain ⟨hres, hsup⟩ := @lastLevels_flat flat lookback low tolPct _ hpos hfirst le_rfl hlow
  simp only [fractalBreaks, hres, hsup, candleAt_break]
  norm_num [breakBar, Option.filter]

theorem fractalBreaks_before (hpos : 0 < lookback) (hfirst : lookback * 2 < flat) :
    fractalBreaks (flatThenRetest flat low tolPct) lookback (lookback * 2) = [] := by
  obtain ⟨hres, hsup⟩ :=
    @lastLevels_flat flat lookback low tolPct _ hpos le_rfl hfirst.le fun h => absurd h hfirst.ne
  simp only [fractalBreaks, hres, hsup, candleAt_flat hfirst]
  norm_num [flatBar, Option.filter]

end Flat

/-! ## Early decisions -/

section Early

variable {params : StrategyParams}

/-- The window that breaks is the lookback, and the retest follows at once. -/
theorem signalsBreakoutRetest_flat (hparams : PositiveWindows params) (low : ℚ) :
    ∃ rest, breakoutRetest.generateSignals (flatThenRetest (params.int "lookback" 20) low
        (params.float "retest_tol_pct" 1)) params =
      ⟨params.int "lookback" 20 + 2, .short, "retest_hold_resistance"⟩ :: rest := by
  have hlookback : 0 < params.int "lookback" 20 := int_pos hparams (by decide)
  have hwindow : 0 < params.int "retest_window" 5 := int_pos hparams (by decide)
  have hattempt : attemptAt (flatThenRetest (params.int "lookback" 20) low
      (params.float "retest_tol_pct" 1)) (params.int "retest_window" 5)
      (params.float "retest_tol_pct" 1) (params.int "lookback" 20)
      (breakoutBreaks (flatThenRetest (params.int "lookback" 20) low
        (params.float "retest_tol_pct" 1)) (params.int "lookback" 20) (params.int "lookback" 20)) =
      some (params.int "lookback" 20 + 1, .short, "retest_hold_resistance") := by
    rw [breakoutBreaks_flat hlookback, attemptAt_flat hwindow]
  have hstop : params.int "lookback" 20 < params.int "lookback" 20 + 3 - 1 := by omega
  change ∃ rest, signalsBreakoutRetest _ _ = _
  rw [signalsBreakoutRetest, length_flatThenRetest]
  exact ⟨_, retestLoop_eq_cons hstop hattempt⟩

/-- The break comes at the end of the first pivot window or right behind it. -/
theorem signalsFractal_flat (hparams : PositiveWindows params) {flat : ℕ} {low : ℚ}
    (hflat : flat = params.int "swing_lookback" 3 * 2 ∧ low = 100 ∨
      flat = params.int "swing_lookback" 3 * 2 + 1) :
    ∃ rest, fractalSwingBreakRetest.generateSignals (flatThenRetest flat low
        (params.float "retest_tol_pct" 1)) params =
      ⟨flat + 2, .short, "fractal_break_retest_short"⟩ :: rest := by
  have hlookback : 0 < params.int "swing_lookback" 3 := int_pos hparams (by decide)
  have hwindow : 0 < params.int "retest_window" 5 := int_pos hparams (by decide)
  have hattempt : attemptAt (flatThenRetest flat low (params.float "retest_tol_pct" 1))
      (params.int "retest_window" 5) (params.float "retest_tol_pct" 1) flat
      (fractalBreaks (flatThenRetest flat low (params.float "retest_tol_pct" 1))
        (params.int "swing_lookback" 3) flat) =
      some (flat + 1, .short, "fractal_break_retest_short") := by
    rw [fractalBreaks_flat hlookback (by omega), attemptAt_flat hwindow]
    rcases hflat with ⟨-, hlow⟩ | hflat
    · exact fun _ => hlow
    · omega
  have hstop : flat < flat + 3 - 1 := by omega
  change ∃ rest, signalsFractalSwingBreakRetest _ _ = _
  rw [signalsFractalSwingBreakRetest, length_flatThenRetest]
  rcases hflat with ⟨rfl, -⟩ | rfl
  · exact ⟨_, retestLoop_eq_cons hstop hattempt⟩
  · have hbefore : params.int "swing_lookback" 3 * 2 < params.int "swing_lookback" 3 * 2 + 1 + 3 - 1 := by
      omega
    refine ⟨_, (retestLoop_eq_next hbefore ?_).trans (retestLoop_eq_cons hstop hattempt)⟩
    rw [fractalBreaks_before hlookback (by omega), attemptAt_nil]

end Early

/-! ## Gaps -/

/-- The third bar leaves a gap, and the fourth one dips into it and reclaims it. -/
def gapBars : List Candle :=
  [⟨⟨100, 100, 100, 100, none⟩, none, none, none⟩,
    ⟨⟨100.00002, 100.00002, 100.00002, 100.00002, none⟩, none, none, none⟩,
    ⟨⟨100.00002, 100.00002, 100.00002, 100.00002, none⟩, none, none, none⟩,
    ⟨⟨100.00002, 100.00003, 100.00002, 100.00003, none⟩, none, none, none⟩,
    ⟨⟨100.00003, 100.00003, 100.00003, 100.00003, none⟩, none, none, none⟩]

theorem reactsTo_gapBars {lookback : ℕ} {maxDistance : ℚ} (hlookback : 2 ≤ lookback)
    (hdistance : 0 ≤ maxDistance) :
    reactsTo gapBars 3 lookback maxDistance .bull .reclaim = true := by
  have hfind : findFvg gapBars 3 .bull lookback = findFvg gapBars 3 .bull 2 := by
    rw [findFvg, findFvg, show 3 - lookback - 1 = 3 - 2 - 1 by omega]
  have hnear : nearestFvgDistanceAt gapBars 3 .bull lookback = some 0 := by
    rw [nearestFvgDistanceAt, hfind]
    decide +kernel
  have hreaction : fvgReactionAt gapBars 3 .bull lookback = some .reclaim := by
    rw [fvgReactionAt, hfind]
    decide +kernel
  rw [reactsTo, hnear]
  refine decide_eq_true ⟨?_, hreaction⟩
  rwa [abs_zero]

section Fvg

variable {params : StrategyParams} {candles : List Candle}

theorem mem_signalsFvg_gapBars (hlookback : 2 ≤ params.int "fvg_lookback" 30)
    (hdistance : 0 ≤ params.float "max_distance_pct" 3) :
    ⟨4, .long, "fvg_bull_reclaim"⟩ ∈ fvgReclaimReject.generateSignals gapBars params := by
  refine List.mem_filterMap.2 ⟨3, by decide, ?_⟩
  dsimp only
  rw [if_pos (reactsTo_gapBars hlookback hdistance)]
  rfl

/-- A negative distance admits no gap. -/
theorem reactsTo_eq_false {idx lookback : ℕ} {maxDistance : ℚ} (hdistance : maxDistance < 0)
    (direction : Direction) (reaction : GapReaction) :
    reactsTo candles idx lookback maxDistance direction reaction = false := by
  rw [reactsTo]
  cases nearestFvgDistanceAt candles idx direction lookback with
  | none => rfl
  | some dist =>
    refine decide_eq_false fun h => ?_
    exact absurd (h.1.trans_lt hdistance) (not_lt.2 (abs_nonneg dist))

theorem fvgReclaimReject_declares
    (hcondition : params.int "fvg_lookback" 30 ≤ 4 ∨ params.float "max_distance_pct" 3 < 0) :
    DeclaresHistory fvgReclaimReject params candles := by
  rcases hcondition with hlookback | hdistance
  · refine declaresHistory_of_scan 3 (fun _ h => mem_signalsFrom h) ?_ (by decide)
    rw [fvgReclaimReject_required]
    omega
  · refine declaresHistory_of_decisions fun signal hsignal => ?_
    obtain ⟨idx, -, hidx⟩ := List.mem_filterMap.1 hsignal
    dsimp only at hidx
    rw [reactsTo_eq_false hdistance, reactsTo_eq_false hdistance] at hidx
    cases hidx

end Fvg

/-! ## When the declared history is a bound -/

/-- The first decision of these candles lies before the declared history. -/
theorem not_declaresHistory {definition : StrategyDef} {params : StrategyParams}
    {candles : List Candle} {signal : Signal}
    (hmem : signal ∈ definition.generateSignals candles params)
    (hearly : signal.idx < definition.requiredHistoryBars params) (hpos : 0 < signal.idx) :
    ¬ DeclaresHistory definition params candles := by
  intro h
  have := h.decisions signal hmem
  omega

section Main

variable {definition : StrategyDef} {params : StrategyParams}

theorem eq_of_strategyId {other : StrategyDef} (hmem : definition ∈ strategies)
    (hother : other ∈ strategies) (h : definition.strategyId = other.strategyId) :
    definition = other := by
  have hnodup : (strategies.map StrategyDef.strategyId).Nodup := by decide +kernel
  exact List.inj_on_of_nodup_map hnodup hmem hother h

theorem possibleOhlc_flatThenRetest {flat : ℕ} {tolPct : ℚ} :
    ∀ candle ∈ flatThenRetest flat 90 tolPct, PossibleOhlc candle := by
  intro candle hcandle
  have habs := abs_nonneg tolPct
  simp only [flatThenRetest, List.mem_append, List.mem_replicate, List.mem_cons, List.not_mem_nil,
    or_false] at hcandle
  rcases hcandle with ⟨-, rfl⟩ | rfl | rfl | rfl
  · constructor <;> norm_num [flatBar]
  · constructor <;> norm_num [breakBar]
  all_goals constructor <;> norm_num [retestBar] <;> linarith

theorem possibleOhlc_gapBars : ∀ candle ∈ gapBars, PossibleOhlc candle := by
  intro candle hcandle
  simp only [gapBars, List.mem_cons, List.not_mem_nil, or_false] at hcandle
  rcases hcandle with rfl | rfl | rfl | rfl | rfl
  all_goals constructor <;> norm_num

theorem breakoutRetest_window (hparams : PositiveWindows params)
    (h : ∀ candles : List Candle, (∀ candle ∈ candles, PossibleOhlc candle) →
      DeclaresHistory breakoutRetest params candles) :
    params.int "retest_window" 5 ≤ 2 := by
  by_contra hwindow
  obtain ⟨rest, hrest⟩ := signalsBreakoutRetest_flat hparams 90
  refine not_declaresHistory (hrest ▸ List.mem_cons_self) ?_ (Nat.succ_pos _)
    (h _ possibleOhlc_flatThenRetest)
  rw [breakoutRetest_required hparams]
  change params.int "lookback" 20 + 2 < _
  omega

theorem fractal_window {flat : ℕ} {low : ℚ} (hparams : PositiveWindows params)
    (hflat : flat = params.int "swing_lookback" 3 * 2 ∧ low = 100 ∨
      flat = params.int "swing_lookback" 3 * 2 + 1)
    (h : DeclaresHistory fractalSwingBreakRetest params
      (flatThenRetest flat low (params.float "retest_tol_pct" 1))) :
    params.int "swing_lookback" 3 * 2 + params.int "retest_window" 5 ≤ flat + 2 := by
  by_contra hwindow
  obtain ⟨rest, hrest⟩ := signalsFractal_flat hparams hflat
  refine not_declaresHistory (hrest ▸ List.mem_cons_self) ?_ (Nat.succ_pos _) h
  rw [fractalSwingBreakRetest_required hparams]
  exact not_le.1 hwindow

theorem fvg_window (h : DeclaresHistory fvgReclaimReject params gapBars) :
    params.int "fvg_lookback" 30 ≤ 4 ∨ params.float "max_distance_pct" 3 < 0 := by
  by_contra hcondition
  rw [not_or, not_le, not_lt] at hcondition
  refine not_declaresHistory (mem_signalsFvg_gapBars (by omega) hcondition.2) ?_ (by decide) h
  rw [fvgReclaimReject_required]
  exact lt_max_of_lt_left hcondition.1

theorem declares_of_boundingParams {candles : List Candle} (hmem : definition ∈ strategies)
    (hparams : PositiveWindows params) (h : BoundingParams 2 definition params) :
    DeclaresHistory definition params candles := by
  obtain ⟨hbreakout, hfractal, hfvg⟩ := h
  simp only [strategies, List.mem_cons] at hmem
  rcases hmem with rfl | rfl | rfl | hscan
  · exact breakoutRetest_declares hparams (hbreakout rfl)
  · exact fractalSwingBreakRetest_declares hparams (hfractal rfl)
  · exact fvgReclaimReject_declares (hfvg rfl)
  · exact scan_declares hparams hscan

theorem declares_of_possibleOhlc {candles : List Candle} (hmem : definition ∈ strategies)
    (hparams : PositiveWindows params) (h : BoundingParams 3 definition params)
    (hohlc : ∀ candle ∈ candles, PossibleOhlc candle) :
    DeclaresHistory definition params candles := by
  obtain ⟨hbreakout, hfractal, hfvg⟩ := h
  simp only [strategies, List.mem_cons] at hmem
  rcases hmem with rfl | rfl | rfl | hscan
  · exact breakoutRetest_declares hparams (hbreakout rfl)
  · exact fractalSwingBreakRetest_declares_of_ohlc hohlc hparams (hfractal rfl)
  · exact fvgReclaimReject_declares (hfvg rfl)
  · exact scan_declares hparams hscan

/-- Which params make the declared history a bound: for every list of candles, and for every list
of candles with a possible geometry. -/
theorem declaresHistory_iff (hmem : definition ∈ strategies) (hparams : PositiveWindows params) :
    ((∀ candles, DeclaresHistory definition params candles) ↔
      BoundingParams 2 definition params) ∧
    ((∀ candles : List Candle, (∀ candle ∈ candles, PossibleOhlc candle) →
        DeclaresHistory definition params candles) ↔
      BoundingParams 3 definition params) := by
  obtain ⟨hretest, hswing, hgap⟩ : breakoutRetest ∈ strategies ∧
      fractalSwingBreakRetest ∈ strategies ∧ fvgReclaimReject ∈ strategies := by
    simp [strategies]
  have hbreakout : definition.strategyId = "breakout_retest" → definition = breakoutRetest :=
    eq_of_strategyId hmem hretest
  have hfractal : definition.strategyId = "fractal_swing_break_retest" →
      definition = fractalSwingBreakRetest := eq_of_strategyId hmem hswing
  have hfvg : definition.strategyId = "fvg_reclaim_reject" → definition = fvgReclaimReject :=
    eq_of_strategyId hmem hgap
  constructor
  · refine ⟨fun h => ⟨fun hid => ?_, fun hid => ?_, fun hid => ?_⟩,
      fun h candles => declares_of_boundingParams hmem hparams h⟩
    · exact breakoutRetest_window hparams fun candles _ => hbreakout hid ▸ h candles
    · have hearly := fractal_window hparams (.inl ⟨rfl, rfl⟩) (hfractal hid ▸ h _)
      omega
    · exact fvg_window (hfvg hid ▸ h _)
  · refine ⟨fun h => ⟨fun hid => ?_, fun hid => ?_, fun hid => ?_⟩,
      fun h candles hohlc => declares_of_possibleOhlc hmem hparams h hohlc⟩
    · exact breakoutRetest_window hparams (hbreakout hid ▸ h)
    · have hearly := fractal_window hparams (.inr rfl)
        (hfractal hid ▸ h _ possibleOhlc_flatThenRetest)
      omega
    · exact fvg_window (hfvg hid ▸ h _ possibleOhlc_gapBars)

end Main

/-- No entry: every window and number is the default. -/
def defaultParams : StrategyParams where
  window _ := none
  number _ := none
  flag _ := none

theorem positiveWindows_defaultParams : PositiveWindows defaultParams := by
  intro key window h
  cases h

theorem declaresHistory_iff_fractal :
    fractalSwingBreakRetest ∈ strategies ∧ PositiveWindows defaultParams ∧
    ((∀ candles, DeclaresHistory fractalSwingBreakRetest defaultParams candles) ↔
      BoundingParams 2 fractalSwingBreakRetest defaultParams) ∧
    ((∀ candles : List Candle, (∀ candle ∈ candles, PossibleOhlc candle) →
        DeclaresHistory fractalSwingBreakRetest defaultParams candles) ↔
      BoundingParams 3 fractalSwingBreakRetest defaultParams) :=
  have hmem : fractalSwingBreakRetest ∈ strategies := by simp [strategies]
  ⟨hmem, positiveWindows_defaultParams, declaresHistory_iff hmem positiveWindows_defaultParams⟩

/-- With the defaults a break behind twenty flat bars gives a signal on 23 candles, where 25 are
declared. -/
theorem default_retest_before_boundary :
    breakoutRetest ∈ strategies ∧ PositiveWindows defaultParams ∧
      (∀ candle ∈ flatThenRetest 20 90 1, PossibleOhlc candle) ∧
      (flatThenRetest 20 90 1).length < breakoutRetest.requiredHistoryBars defaultParams ∧
      beforeBoundaryStatus breakoutRetest defaultParams (flatThenRetest 20 90 1) =
        .signalBeforeBoundary ∧
      ¬ DeclaresHistory breakoutRetest defaultParams (flatThenRetest 20 90 1) := by
  have hstatus : beforeBoundaryStatus breakoutRetest defaultParams (flatThenRetest 20 90 1) =
      .signalBeforeBoundary := by
    decide +kernel
  have hshort : (flatThenRetest 20 90 1).length < breakoutRetest.requiredHistoryBars defaultParams := by
    decide +kernel
  exact ⟨by simp [strategies], positiveWindows_defaultParams, possibleOhlc_flatThenRetest, hshort,
    hstatus, fun h => h.status hshort hstatus⟩

end ResearchLab.Signals
