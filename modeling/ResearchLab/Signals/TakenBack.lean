import Mathlib
import ResearchLab.Signals.LookAhead

/-!
# Signals taken back

A retest generator looks ahead from a break and jumps behind the retest it finds. What it skips
may hold a break with a retest of its own, so a later bar can take back an earlier signal.
-/
namespace ResearchLab.Signals
open Foundation

/-- Two lists that agree on the bars before `i` and reach behind it give the same annotated
signals at `i`. -/
def NoLookAhead (definition : StrategyDef) (params : StrategyParams) : Prop :=
  ∀ (candles candles' : List Candle) (i : ℕ) (p : RegimeThresholds),
    candles.take i = candles'.take i → i < candles.length → i < candles'.length →
    ∀ side reason regime,
      ((⟨i, side, reason⟩, regime) ∈
          annotateSignalsWithRegime candles (definition.generateSignals candles params) p ↔
        (⟨i, side, reason⟩, regime) ∈
          annotateSignalsWithRegime candles' (definition.generateSignals candles' params) p)

/-- The retest windows within which no later bar takes a signal back. -/
def CausalParams (definition : StrategyDef) (params : StrategyParams) : Prop :=
  (definition.strategyId = "breakout_retest" → params.int "retest_window" 5 ≤ 2) ∧
  (definition.strategyId = "fractal_swing_break_retest" → params.int "retest_window" 5 ≤ 1)

section Annotated

variable {candles candles' : List Candle} {n : ℕ}

theorem mem_annotateSignalsWithRegime {signals : List Signal} {p : RegimeThresholds}
    {signal : Signal} {regime : Regime} :
    (signal, regime) ∈ annotateSignalsWithRegime candles signals p ↔
      signal ∈ signals ∧ regimeAt candles signal.idx p = regime := by
  simp only [annotateSignalsWithRegime, List.mem_map, Prod.mk.injEq]
  constructor
  · rintro ⟨found, hfound, rfl, hregime⟩
    exact ⟨hfound, hregime⟩
  · rintro ⟨hsignal, hregime⟩
    exact ⟨signal, hsignal, rfl, hregime⟩

theorem regimeAt_agree (h : AgreeTo n candles candles') (p : RegimeThresholds) :
    regimeAt candles n p = regimeAt candles' n p := by
  rw [regimeAt, regimeAt, h.slice _ le_rfl]

theorem noLookAhead_of_sameSignals {definition : StrategyDef} {params : StrategyParams}
    (h : ∀ (candles candles' : List Candle) (n : ℕ), AgreeTo n candles candles' →
      n < candles.length → n < candles'.length →
        SameSignals n (definition.generateSignals candles params)
          (definition.generateSignals candles' params)) :
    NoLookAhead definition params := by
  intro candles candles' i p htake hleft hright side reason regime
  have hagree : AgreeTo i candles candles' := ⟨htake, hleft.le, hright.le⟩
  rw [mem_annotateSignalsWithRegime, mem_annotateSignalsWithRegime,
    h candles candles' i hagree hleft hright _ le_rfl, regimeAt_agree hagree]

end Annotated

theorem noLookAhead_of_causalParams {definition : StrategyDef} {params : StrategyParams}
    (hmem : definition ∈ strategies) (h : CausalParams definition params) :
    NoLookAhead definition params := by
  obtain ⟨hbreakout, hfractal⟩ := h
  refine noLookAhead_of_sameSignals fun candles candles' n hagree hleft hright => ?_
  rcases List.mem_cons.1 hmem with rfl | hmem
  · exact breakoutRetest_agree hagree hleft hright (hbreakout rfl)
  rcases List.mem_cons.1 hmem with rfl | hmem
  · exact fractal_agree hagree hleft hright (hfractal rfl)
  · exact scan_agree hagree hleft hright (List.mem_cons.1 hmem)

/-! ## Candles by their index -/

def candlesOf (length : ℕ) (f : ℕ → Candle) : List Candle := (List.range length).map f

section CandlesOf

variable {length length' i j k lookback : ℕ} {f f' : ℕ → Candle} {g : Candle → ℚ}

@[simp] theorem length_candlesOf : (candlesOf length f).length = length := by simp [candlesOf]

theorem candleAt_candlesOf (h : k < length) : candleAt (candlesOf length f) k = f k := by
  rw [candleAt, candlesOf, List.getD_eq_getElem _ _ (by simpa using h), List.getElem_map,
    List.getElem_range]

theorem agreeTo_candlesOf (hleft : i ≤ length) (hright : i ≤ length')
    (h : ∀ k < i, f k = f' k) : AgreeTo i (candlesOf length f) (candlesOf length' f') :=
  AgreeTo.range hleft hright h

theorem mem_slice_candlesOf {x : ℚ} (h : x ∈ slice ((candlesOf length f).map g) i j) :
    ∃ k, i ≤ k ∧ k < j ∧ k < length ∧ x = g (f k) := by
  obtain ⟨k, hk, rfl⟩ := List.mem_iff_getElem.1 h
  simp only [slice, List.length_take, List.length_drop, List.length_map, length_candlesOf] at hk
  refine ⟨i + k, by omega, by omega, by omega, ?_⟩
  simp only [slice, List.getElem_take, List.getElem_drop, List.getElem_map, candlesOf,
    List.getElem_range]

theorem mem_slice_of_lt (hfirst : i ≤ k) (hlast : k < j) (hk : k < length) :
    g (f k) ∈ slice ((candlesOf length f).map g) i j := by
  refine List.mem_of_getElem? (i := k - i) ?_
  rw [slice, List.getElem?_take_of_lt (by omega), List.getElem?_drop, Nat.add_sub_cancel' hfirst,
    candlesOf, List.map_map, List.getElem?_map, List.getElem?_range hk]
  rfl

theorem getD_candlesOf (h : k < length) : ((candlesOf length f).map g).getD k 0 = g (f k) := by
  rw [getD_map_candles (by simpa using h), candleAt_candlesOf h]

theorem slice_candlesOf_ne_nil (hij : i < j) (hj : j ≤ length) :
    slice ((candlesOf length f).map g) i j ≠ [] := by
  rw [← List.length_pos_iff, length_slice (by simpa using hj)]
  omega

theorem windowHigh_candlesOf (hpos : 0 < lookback) (hidx : lookback ≤ i) (hi : i ≤ length) :
    ∃ k, i - lookback ≤ k ∧ k < i ∧
      windowHigh (bars (candlesOf length f)) i lookback = some (f k).high := by
  have hmap : (slice (bars (candlesOf length f)) (i - lookback) i).map Bar.high =
      slice ((candlesOf length f).map fun c => c.high) (i - lookback) i := by
    rw [← slice_map, bars, List.map_map]
    rfl
  have hlt : i - lookback < i := by omega
  obtain ⟨k, hfirst, hlast, -, hk⟩ :=
    mem_slice_candlesOf (@maxOf_mem ℚ _ 0 _ (slice_candlesOf_ne_nil hlt hi))
  exact ⟨k, hfirst, hlast, by rw [windowHigh, if_neg (by omega), hmap, hk]⟩

theorem windowLow_candlesOf (hpos : 0 < lookback) (hidx : lookback ≤ i) (hi : i ≤ length) :
    ∃ k, i - lookback ≤ k ∧ k < i ∧
      windowLow (bars (candlesOf length f)) i lookback = some (f k).low := by
  have hmap : (slice (bars (candlesOf length f)) (i - lookback) i).map Bar.low =
      slice ((candlesOf length f).map fun c => c.low) (i - lookback) i := by
    rw [← slice_map, bars, List.map_map]
    rfl
  have hlt : i - lookback < i := by omega
  obtain ⟨k, hfirst, hlast, -, hk⟩ :=
    mem_slice_candlesOf (@minOf_mem ℚ _ 0 _ (slice_candlesOf_ne_nil hlt hi))
  exact ⟨k, hfirst, hlast, by rw [windowLow, if_neg (by omega), hmap, hk]⟩

end CandlesOf

theorem retestLoop_skip {attempt : ℕ → Option (ℕ × Side × String)} {stop rounds : ℕ} :
    ∀ count first, (∀ idx, first ≤ idx → idx < first + count → attempt idx = none) →
      first + count ≤ stop →
        retestLoop attempt stop (rounds + count) first =
          retestLoop attempt stop rounds (first + count) := by
  intro count
  induction count with
  | zero =>
    intro first _ _
    rfl
  | succ count ih =>
    intro first hnone hstop
    have hnext := @retestLoop_eq_next attempt stop (rounds + count) first (by omega)
      (hnone first le_rfl (by omega))
    have hrest := ih (first + 1) (fun idx hidx hlt => hnone idx (by omega) (by omega)) (by omega)
    rw [Nat.add_assoc, Nat.add_comm 1 count] at hrest
    exact hnext.trans hrest

section FindRetest

variable {candles : List Candle} {idx hit j retestWindow : ℕ} {level tolPct : ℚ} {side : Side}

theorem retests_long_eq_false (h : (candleAt candles j).close ≤ level) :
    retests candles .long level tolPct j = false :=
  decide_eq_false fun hretests => absurd hretests.2 (not_lt.2 h)

theorem retests_long_eq_false_of_low (h : level + level * tolPct / 100 < (candleAt candles j).low) :
    retests candles .long level tolPct j = false :=
  decide_eq_false fun hretests => absurd hretests.1 (not_le.2 h)

theorem retests_short_eq_true (hhigh : level + |level * tolPct / 100| ≤ (candleAt candles j).high)
    (hclose : (candleAt candles j).close < level) : retests candles .short level tolPct j = true := by
  refine decide_eq_true ⟨?_, hclose⟩
  have := neg_abs_le (level * tolPct / 100)
  linarith

theorem retests_long_eq_true (hlow : (candleAt candles j).low ≤ level - |level * tolPct / 100|)
    (hclose : level < (candleAt candles j).close) : retests candles .long level tolPct j = true := by
  refine decide_eq_true ⟨?_, hclose⟩
  have := neg_abs_le (level * tolPct / 100)
  linarith

theorem findRetest_eq_none
    (h : ∀ j, idx < j → j + 1 < candles.length → retests candles side level tolPct j = false) :
    findRetest candles idx retestWindow level tolPct side = none := by
  refine List.find?_eq_none.2 fun j hj => ?_
  obtain ⟨hfirst, hlast⟩ := mem_arange.1 hj
  rw [h j hfirst (by omega)]
  exact Bool.false_ne_true

theorem findRetest_eq_some (hfirst : idx < hit) (hwindow : hit ≤ idx + retestWindow)
    (hlast : hit + 1 < candles.length) (hretests : retests candles side level tolPct hit = true)
    (hbefore : ∀ j, idx < j → j < hit → retests candles side level tolPct j = false) :
    findRetest candles idx retestWindow level tolPct side = some hit :=
  find?_arange_eq_some.2 ⟨hfirst, by omega, hretests, hbefore⟩

theorem attemptAt_single {b : Break} :
    attemptAt candles retestWindow tolPct idx [b] =
      (findRetest candles idx retestWindow b.level tolPct b.side).map fun hit =>
        (hit, b.side, b.reason) := by
  rw [attemptAt, List.findSome?_cons, List.findSome?_nil]
  cases findRetest candles idx retestWindow b.level tolPct b.side <;> rfl

end FindRetest

/-! ## A breakout taken back -/

/-- A break upwards, a break downwards and its retest; then the first break is retested too, or
not. -/
def takenBackBar (lookback : ℕ) (tolPct : ℚ) (reclaims : Bool) (k : ℕ) : Candle :=
  if k < lookback then flatBar
  else if k = lookback then ⟨⟨100, 110, 100, 110, none⟩, none, none, none⟩
  else if k = lookback + 1 then ⟨⟨110, 110, 90, 90, none⟩, none, none, none⟩
  else if k = lookback + 2 then retestBar tolPct
  else if k = lookback + 3 ∧ reclaims then
    ⟨⟨100, 101, 100 - |tolPct|, 101, none⟩, none, none, none⟩
  else ⟨⟨90, 90, 90, 90, none⟩, none, none, none⟩

/-- The list ends one bar behind the bar that retests the first break or does not. -/
def takenBack (lookback : ℕ) (tolPct : ℚ) (reclaims : Bool) : List Candle :=
  candlesOf (lookback + 5) (takenBackBar lookback tolPct reclaims)

section TakenBack

variable {lookback retestWindow : ℕ} {tolPct : ℚ} {reclaims : Bool}

@[simp] theorem length_takenBack : (takenBack lookback tolPct reclaims).length = lookback + 5 :=
  length_candlesOf

theorem candleAt_takenBack (k : ℕ) (h : k < lookback + 5) :
    candleAt (takenBack lookback tolPct reclaims) k = takenBackBar lookback tolPct reclaims k :=
  candleAt_candlesOf h

/-- The break upwards. -/
theorem takenBack_first (hpos : 0 < lookback) :
    breakoutBreaks (takenBack lookback tolPct reclaims) lookback lookback =
      [⟨.long, 100, "retest_hold_support"⟩] := by
  obtain ⟨k, -, hk, hhigh⟩ := @windowHigh_candlesOf (lookback + 5) lookback lookback
    (takenBackBar lookback tolPct reclaims) hpos le_rfl (by omega)
  obtain ⟨l, -, hl, hlow⟩ := @windowLow_candlesOf (lookback + 5) lookback lookback
    (takenBackBar lookback tolPct reclaims) hpos le_rfl (by omega)
  rw [takenBackBar, if_pos hk] at hhigh
  rw [takenBackBar, if_pos hl] at hlow
  rw [breakoutBreaks, candleAt_takenBack _ (by omega)]
  simp only [takenBack, hhigh, hlow]
  norm_num [takenBackBar, flatBar]

/-- The break downwards on the next bar. -/
theorem takenBack_second (hpos : 0 < lookback) :
    breakoutBreaks (takenBack lookback tolPct reclaims) lookback (lookback + 1) =
      [⟨.short, 100, "retest_hold_resistance"⟩] := by
  obtain ⟨k, -, hk, hhigh⟩ := @windowHigh_candlesOf (lookback + 5) (lookback + 1) lookback
    (takenBackBar lookback tolPct reclaims) hpos (by omega) (by omega)
  obtain ⟨l, -, hl, hlow⟩ := @windowLow_candlesOf (lookback + 5) (lookback + 1) lookback
    (takenBackBar lookback tolPct reclaims) hpos (by omega) (by omega)
  have hlevel : (takenBackBar lookback tolPct reclaims l).low = 100 := by
    rcases (show l < lookback ∨ l = lookback by omega) with hlt | rfl
    · rw [takenBackBar, if_pos hlt, flatBar]
    · rw [takenBackBar, if_neg (lt_irrefl _), if_pos rfl]
  have habove : (100 : ℚ) ≤ (takenBackBar lookback tolPct reclaims k).high := by
    rcases (show k < lookback ∨ k = lookback by omega) with hlt | rfl
    · rw [takenBackBar, if_pos hlt, flatBar]
    · rw [takenBackBar, if_neg (lt_irrefl _), if_pos rfl]
      norm_num
  have hclose : (takenBackBar lookback tolPct reclaims (lookback + 1)).close = 90 := by
    simp [takenBackBar]
  rw [breakoutBreaks, candleAt_takenBack _ (by omega), hclose]
  simp only [takenBack, hhigh, hlow, hlevel]
  rw [if_neg (not_lt.2 (by linarith)), if_pos (by norm_num)]

theorem takenBack_close_le {k : ℕ} (hfirst : lookback < k) (hlast : k ≤ lookback + 3)
    (hquiet : k = lookback + 3 → reclaims = false) :
    (takenBackBar lookback tolPct reclaims k).close ≤ 100 := by
  rcases (show k = lookback + 1 ∨ k = lookback + 2 ∨ k = lookback + 3 by omega) with rfl | rfl | rfl
  · norm_num [takenBackBar]
  · norm_num [takenBackBar, retestBar]
  · norm_num [takenBackBar, hquiet rfl]

theorem retests_takenBack {k : ℕ} (hfirst : lookback < k) (hlast : k ≤ lookback + 3)
    (hquiet : k = lookback + 3 → reclaims = false) :
    retests (takenBack lookback tolPct reclaims) .long 100 tolPct k = false := by
  refine retests_long_eq_false ?_
  rw [candleAt_takenBack _ (by omega)]
  exact takenBack_close_le hfirst hlast hquiet

theorem takenBack_quiet (hpos : 0 < lookback) :
    attemptAt (takenBack lookback tolPct false) retestWindow tolPct lookback
      (breakoutBreaks (takenBack lookback tolPct false) lookback lookback) = none := by
  have hnone : findRetest (takenBack lookback tolPct false) lookback retestWindow 100 tolPct .long =
      none := by
    refine findRetest_eq_none fun j hfirst hlast => ?_
    rw [length_takenBack] at hlast
    exact retests_takenBack hfirst (by omega) fun _ => rfl
  rw [takenBack_first hpos, attemptAt_single, hnone]
  rfl

theorem takenBack_retest (hpos : 0 < lookback) (hwindow : 0 < retestWindow) :
    attemptAt (takenBack lookback tolPct reclaims) retestWindow tolPct (lookback + 1)
      (breakoutBreaks (takenBack lookback tolPct reclaims) lookback (lookback + 1)) =
      some (lookback + 2, .short, "retest_hold_resistance") := by
  have hbar : candleAt (takenBack lookback tolPct reclaims) (lookback + 2) = retestBar tolPct := by
    rw [candleAt_takenBack _ (by omega)]
    simp [takenBackBar]
  have hretests : retests (takenBack lookback tolPct reclaims) .short 100 tolPct (lookback + 2) =
      true := by
    refine retests_short_eq_true ?_ ?_
    · rw [hbar, mul_div_cancel_left₀ tolPct (by norm_num)]
      exact le_rfl
    · rw [hbar]
      norm_num [retestBar]
  have hfind : findRetest (takenBack lookback tolPct reclaims) (lookback + 1) retestWindow 100 tolPct
      .short = some (lookback + 2) :=
    findRetest_eq_some (by omega) (by omega) (by rw [length_takenBack]; omega) hretests
      fun j hfirst hlast => by omega
  rw [takenBack_second hpos, attemptAt_single, hfind]
  rfl

theorem takenBack_reclaim (hpos : 0 < lookback) (hwindow : 3 ≤ retestWindow) :
    attemptAt (takenBack lookback tolPct true) retestWindow tolPct lookback
      (breakoutBreaks (takenBack lookback tolPct true) lookback lookback) =
      some (lookback + 3, .long, "retest_hold_support") := by
  have hbar : candleAt (takenBack lookback tolPct true) (lookback + 3) =
      ⟨⟨100, 101, 100 - |tolPct|, 101, none⟩, none, none, none⟩ := by
    rw [candleAt_takenBack _ (by omega)]
    simp [takenBackBar]
  have hretests : retests (takenBack lookback tolPct true) .long 100 tolPct (lookback + 3) =
      true := by
    refine retests_long_eq_true ?_ ?_
    · rw [hbar, mul_div_cancel_left₀ tolPct (by norm_num)]
    · rw [hbar]
      norm_num
  have hfind : findRetest (takenBack lookback tolPct true) lookback retestWindow 100 tolPct .long =
      some (lookback + 3) :=
    findRetest_eq_some (by omega) (by omega) (by rw [length_takenBack]; omega) hretests
      fun j hfirst hlast => retests_takenBack hfirst (by omega) fun h => by omega
  rw [takenBack_first hpos, attemptAt_single, hfind]
  rfl

/-- The two lists agree up to the bar of the signal. -/
theorem agreeTo_takenBack (lookback : ℕ) (tolPct : ℚ) :
    AgreeTo (lookback + 3) (takenBack lookback tolPct false) (takenBack lookback tolPct true) := by
  refine agreeTo_candlesOf (by omega) (by omega) fun k hk => ?_
  have hne : k ≠ lookback + 3 := hk.ne
  simp [takenBackBar, hne]

section Signals

variable {params : StrategyParams}

/-- Without the retest of the first break the second one gives a signal. -/
theorem mem_signals_quiet (hparams : PositiveWindows params) :
    ⟨params.int "lookback" 20 + 3, .short, "retest_hold_resistance"⟩ ∈
      signalsBreakoutRetest (takenBack (params.int "lookback" 20)
        (params.float "retest_tol_pct" 1) false) params := by
  have hpos : 0 < params.int "lookback" 20 := int_pos hparams (by decide)
  have hwindow : 0 < params.int "retest_window" 5 := int_pos hparams (by decide)
  have hstop : params.int "lookback" 20 < params.int "lookback" 20 + 5 - 1 := by omega
  have hstop' : params.int "lookback" 20 + 1 < params.int "lookback" 20 + 5 - 1 := by omega
  rw [signalsBreakoutRetest, length_takenBack]
  change _ ∈ retestLoop _ _ (params.int "lookback" 20 + 3 + 1) _
  rw [retestLoop_eq_next hstop (takenBack_quiet hpos),
    retestLoop_eq_cons hstop' (takenBack_retest hpos hwindow)]
  exact List.mem_cons_self

/-- The retest of the first break jumps over the second one. -/
theorem signals_reclaim (hparams : PositiveWindows params)
    (hwindow : 3 ≤ params.int "retest_window" 5) :
    signalsBreakoutRetest (takenBack (params.int "lookback" 20)
        (params.float "retest_tol_pct" 1) true) params =
      [⟨params.int "lookback" 20 + 4, .long, "retest_hold_support"⟩] := by
  have hpos : 0 < params.int "lookback" 20 := int_pos hparams (by decide)
  have hstop : params.int "lookback" 20 < params.int "lookback" 20 + 5 - 1 := by omega
  have hend : params.int "lookback" 20 + 5 - 1 ≤ params.int "lookback" 20 + 3 + 1 := by omega
  rw [signalsBreakoutRetest, length_takenBack]
  change retestLoop _ _ (params.int "lookback" 20 + 3 + 1) _ = _
  rw [retestLoop_eq_cons hstop (takenBack_reclaim hpos hwindow), retestLoop, if_pos hend]

end Signals

end TakenBack

/-! ## A fractal break taken back -/

/-- Flat bars with the only confirmed high, a plateau of lows under rising highs, a bar between
the two levels that breaks both of them, and the retest from below; then the retest from above
follows, or does not. -/
def betweenBar (lookback : ℕ) (tolPct : ℚ) (reclaims : Bool) (k : ℕ) : Candle :=
  let top := 200 + |tolPct|
  let between := 150 + |tolPct|
  let high := 300 + |tolPct| + k
  if k < 2 * lookback + 1 then flatBar
  else if k < 4 * lookback + 2 then ⟨⟨top, high, top, top, none⟩, none, none, none⟩
  else if k = 4 * lookback + 2 then ⟨⟨between, high, between, between, none⟩, none, none, none⟩
  else if k = 4 * lookback + 3 then
    ⟨⟨90, top + |top * tolPct / 100|, 90, 90, none⟩, none, none, none⟩
  else if k = 4 * lookback + 4 ∧ reclaims then
    ⟨⟨100, 101, 100 - |tolPct|, 101, none⟩, none, none, none⟩
  else ⟨⟨90, 90, 90, 90, none⟩, none, none, none⟩

def between (lookback : ℕ) (tolPct : ℚ) (reclaims : Bool) : List Candle :=
  candlesOf (4 * lookback + 6) (betweenBar lookback tolPct reclaims)

section Between

variable {lookback retestWindow k : ℕ} {tolPct : ℚ} {reclaims : Bool}

@[simp] theorem length_between : (between lookback tolPct reclaims).length = 4 * lookback + 6 :=
  length_candlesOf

theorem candleAt_between (h : k < 4 * lookback + 6) :
    candleAt (between lookback tolPct reclaims) k = betweenBar lookback tolPct reclaims k :=
  candleAt_candlesOf h

theorem betweenBar_flat (h : k < 2 * lookback + 1) :
    betweenBar lookback tolPct reclaims k = flatBar := by
  rw [betweenBar, if_pos h]

theorem betweenBar_plateau (hfirst : 2 * lookback + 1 ≤ k) (hlast : k < 4 * lookback + 2) :
    betweenBar lookback tolPct reclaims k =
      ⟨⟨200 + |tolPct|, 300 + |tolPct| + k, 200 + |tolPct|, 200 + |tolPct|, none⟩,
        none, none, none⟩ := by
  rw [betweenBar, if_neg (by omega), if_pos hlast]

theorem betweenBar_break :
    betweenBar lookback tolPct reclaims (4 * lookback + 2) =
      ⟨⟨150 + |tolPct|, 300 + |tolPct| + (4 * lookback + 2 : ℕ), 150 + |tolPct|, 150 + |tolPct|,
        none⟩, none, none, none⟩ := by
  rw [betweenBar, if_neg (by omega), if_neg (by omega), if_pos rfl]

theorem betweenBar_below :
    betweenBar lookback tolPct reclaims (4 * lookback + 3) =
      ⟨⟨90, 200 + |tolPct| + |(200 + |tolPct|) * tolPct / 100|, 90, 90, none⟩,
        none, none, none⟩ := by
  rw [betweenBar, if_neg (by omega), if_neg (by omega), if_neg (by omega), if_pos rfl]

theorem betweenBar_last :
    betweenBar lookback tolPct reclaims (4 * lookback + 4) =
      if reclaims then ⟨⟨100, 101, 100 - |tolPct|, 101, none⟩, none, none, none⟩
      else ⟨⟨90, 90, 90, 90, none⟩, none, none, none⟩ := by
  rw [betweenBar, if_neg (by omega), if_neg (by omega), if_neg (by omega), if_neg (by omega)]
  cases reclaims <;> simp

theorem betweenBar_high (hflat : 2 * lookback + 1 ≤ k) (hlast : k ≤ 4 * lookback + 2) :
    (betweenBar lookback tolPct reclaims k).high = 300 + |tolPct| + k := by
  rcases hlast.lt_or_eq with hlt | rfl
  · rw [betweenBar_plateau hflat hlt]
  · rw [betweenBar_break]

/-- Up to the break only the flat bars have a confirmed high. -/
theorem lastLevel_highs_between {idx : ℕ} (hpos : 0 < lookback) (hfirst : 2 * lookback ≤ idx)
    (hlast : idx ≤ 4 * lookback + 2) :
    lastLevel (confirmedHighs (between lookback tolPct reclaims) lookback) idx = some 100 := by
  have hvalue {i : ℕ} (hi : i < 4 * lookback + 6) :
      (highs (between lookback tolPct reclaims)).getD i 0 =
        (betweenBar lookback tolPct reclaims i).high := getD_candlesOf hi
  have hlong : lookback + lookback < (highs (between lookback tolPct reclaims)).length := by
    rw [highs, List.length_map, length_between]
    omega
  have hflat : (highs (between lookback tolPct reclaims)).getD lookback 0 = 100 := by
    rw [hvalue (by omega), betweenBar_flat (by omega), flatBar]
  have hpivot : maxOf 0 (slice (highs (between lookback tolPct reclaims)) 0
      (lookback + lookback + 1)) ≤ (highs (between lookback tolPct reclaims)).getD lookback 0 := by
    obtain ⟨k, -, hk, -, hmax⟩ := mem_slice_candlesOf (@maxOf_mem ℚ _ 0 _
      (@slice_candlesOf_ne_nil (4 * lookback + 6) 0 (lookback + lookback + 1)
        (betweenBar lookback tolPct reclaims) (fun c => c.high) (by omega) (by omega)))
    have hbar : betweenBar lookback tolPct reclaims k = flatBar := betweenBar_flat (by omega)
    rw [hbar] at hmax
    rw [hflat]
    exact hmax.le
  obtain ⟨rest, hrest⟩ := @confirmedPivots_eq_cons _ _
    (fun level window => maxOf 0 window ≤ level) hlong (decide_eq_true hpivot)
  have hfirstConfirmed : lookback + lookback ≤ idx := by omega
  refine lastLevel_eq hrest hfirstConfirmed fun pivot hmem hconfirmed => ?_
  obtain ⟨i, hi, -, hmax, rfl⟩ := mem_confirmedPivots.1 hmem
  rcases hi.eq_or_lt with rfl | hi
  · exact hflat
  -- a later bar of the window is higher
  have hconfirmed : i + lookback ≤ 4 * lookback + 2 := hconfirmed.trans hlast
  have hlate : (betweenBar lookback tolPct reclaims (i + lookback)).high ≤
      (betweenBar lookback tolPct reclaims i).high := by
    rw [← @getD_candlesOf (4 * lookback + 6) i (betweenBar lookback tolPct reclaims)
      (fun c => c.high) (by omega)]
    refine (le_maxOf ?_).trans (of_decide_eq_true hmax)
    exact mem_slice_of_lt (by omega) (by omega) (by omega)
  have habs := abs_nonneg tolPct
  rw [betweenBar_high (by omega) hconfirmed] at hlate
  by_cases hflat' : i < 2 * lookback + 1
  · rw [betweenBar_flat hflat', flatBar] at hlate
    have hcast : (0 : ℚ) ≤ ((i + lookback : ℕ) : ℚ) := Nat.cast_nonneg _
    dsimp only at hlate
    linarith
  · rw [betweenBar_high (by omega) (by omega)] at hlate
    have hcast : ((i : ℕ) : ℚ) < ((i + lookback : ℕ) : ℚ) := by exact_mod_cast (by omega)
    linarith

/-- Up to the plateau no low is higher than the close. -/
theorem low_between_le {i idx : ℕ} (hle : i ≤ idx) (hlast : idx < 4 * lookback + 2) :
    (betweenBar lookback tolPct reclaims i).low ≤
      (betweenBar lookback tolPct reclaims idx).close := by
  have habs := abs_nonneg tolPct
  by_cases hi : i < 2 * lookback + 1
  · rw [betweenBar_flat hi]
    by_cases hidx : idx < 2 * lookback + 1
    · rw [betweenBar_flat hidx]
      exact le_rfl
    · rw [betweenBar_plateau (by omega) hlast]
      change (100 : ℚ) ≤ 200 + |tolPct|
      linarith
  · rw [betweenBar_plateau (by omega) (by omega), betweenBar_plateau (by omega) hlast]

/-- Before the break the bars break the flat high at most. -/
theorem fractalBreaks_between {idx : ℕ} (hpos : 0 < lookback) (hfirst : 2 * lookback ≤ idx)
    (hlast : idx < 4 * lookback + 2) :
    ∀ b ∈ fractalBreaks (between lookback tolPct reclaims) lookback idx,
      b.side = .long ∧ b.level = 100 := by
  have hsup : (lastLevel (confirmedLows (between lookback tolPct reclaims) lookback) idx).filter
      (fun sup => decide ((candleAt (between lookback tolPct reclaims) idx).close < sup)) = none := by
    rw [Option.filter_eq_none_iff]
    intro sup hsup
    obtain ⟨confirmBar, hconfirmed, hmem⟩ := lastLevel_mem hsup
    obtain ⟨i, -, -, -, heq⟩ := mem_confirmedPivots.1 hmem
    obtain ⟨rfl, rfl⟩ := Prod.mk.inj heq
    have hlow : (lows (between lookback tolPct reclaims)).getD i 0 =
        (betweenBar lookback tolPct reclaims i).low := getD_candlesOf (by omega)
    rw [candleAt_between (by omega), hlow]
    simpa using low_between_le (by omega) hlast
  intro b hb
  simp only [fractalBreaks, lastLevel_highs_between hpos hfirst hlast.le, hsup, Option.map_none,
    Option.toList_none, List.append_nil, Option.mem_toList, Option.map_eq_some_iff,
    Option.filter_eq_some_iff] at hb
  obtain ⟨res, ⟨hres, -⟩, rfl⟩ := hb
  exact ⟨rfl, (Option.some.inj hres).symm⟩

/-- The low of the plateau is the last level confirmed before the break. -/
theorem lastLevel_lows_between (hpos : 0 < lookback) :
    lastLevel (confirmedLows (between lookback tolPct reclaims) lookback) (4 * lookback + 2) =
      some (200 + |tolPct|) := by
  have hvalue {i : ℕ} (hi : i < 4 * lookback + 6) :
      (lows (between lookback tolPct reclaims)).getD i 0 =
        (betweenBar lookback tolPct reclaims i).low := getD_candlesOf hi
  have hlong : 4 * lookback + 2 < (lows (between lookback tolPct reclaims)).length := by
    rw [lows, List.length_map, length_between]
    omega
  have hrange : arange lookback (4 * lookback + 2 + 1 - lookback) =
      arange lookback (3 * lookback + 1) ++ [3 * lookback + 1] ++ [3 * lookback + 2] := by
    rw [← arange_succ (by omega), ← arange_succ (by omega)]
    congr 1
    omega
  have htop : (lows (between lookback tolPct reclaims)).getD (3 * lookback + 1) 0 =
      200 + |tolPct| := by
    rw [hvalue (by omega), betweenBar_plateau (by omega) (by omega)]
  have hpivot : (200 + |tolPct| : ℚ) ≤ minOf 0 (slice (lows (between lookback tolPct reclaims))
      (3 * lookback + 1 - lookback) (3 * lookback + 1 + lookback + 1)) := by
    obtain ⟨k, hk, hk', -, hmin⟩ := mem_slice_candlesOf (@minOf_mem ℚ _ 0 _
      (@slice_candlesOf_ne_nil (4 * lookback + 6) (3 * lookback + 1 - lookback)
        (3 * lookback + 1 + lookback + 1) (betweenBar lookback tolPct reclaims)
        (fun c => c.low) (by omega) (by omega)))
    have hbar : (betweenBar lookback tolPct reclaims k).low = 200 + |tolPct| := by
      rw [betweenBar_plateau (by omega) (by omega)]
    rw [hbar] at hmin
    exact hmin.ge
  have hnot : ¬ (lows (between lookback tolPct reclaims)).getD (3 * lookback + 2) 0 ≤
      minOf 0 (slice (lows (between lookback tolPct reclaims))
        (3 * lookback + 2 - lookback) (3 * lookback + 2 + lookback + 1)) := by
    have hmem : (betweenBar lookback tolPct reclaims (4 * lookback + 2)).low ∈
        slice (lows (between lookback tolPct reclaims))
          (3 * lookback + 2 - lookback) (3 * lookback + 2 + lookback + 1) :=
      mem_slice_of_lt (by omega) (by omega) (by omega)
    rw [hvalue (by omega), betweenBar_plateau (by omega) (by omega)]
    refine not_le.2 ((minOf_le hmem).trans_lt ?_)
    rw [betweenBar_break]
    change 150 + |tolPct| < 200 + |tolPct|
    linarith
  rw [confirmedLows, lastLevel_confirmedPivots hlong, hrange, List.filterMap_append,
    List.filterMap_append]
  simp only [List.filterMap_cons, List.filterMap_nil, decide_eq_true_eq, hnot, htop, hpivot,
    if_true, if_false, List.append_nil, List.getLast?_append, List.getLast?_singleton,
    Option.some_or, Option.map_some]

/-- The bar between the levels breaks both. -/
theorem fractalBreaks_break (hpos : 0 < lookback) :
    fractalBreaks (between lookback tolPct reclaims) lookback (4 * lookback + 2) =
      [⟨.long, 100, "fractal_break_retest_long"⟩,
        ⟨.short, 200 + |tolPct|, "fractal_break_retest_short"⟩] := by
  have habs := abs_nonneg tolPct
  have hclose : (candleAt (between lookback tolPct reclaims) (4 * lookback + 2)).close =
      150 + |tolPct| := by
    rw [candleAt_between (by omega), betweenBar_break]
  have hres : (100 : ℚ) < 150 + |tolPct| := by linarith
  have hsup : 150 + |tolPct| < 200 + |tolPct| := by linarith
  simp [fractalBreaks, lastLevel_highs_between hpos (show 2 * lookback ≤ 4 * lookback + 2 by omega)
    le_rfl, lastLevel_lows_between hpos, hclose, hres, hsup, Option.filter]

/-- Behind the flat bars no bar retests the flat high, unless the last one reclaims it. -/
theorem retests_between (hfirst : 2 * lookback < k) (hlast : k ≤ 4 * lookback + 4)
    (hquiet : k = 4 * lookback + 4 → reclaims = false) :
    retests (between lookback tolPct reclaims) .long 100 tolPct k = false := by
  have habs := abs_nonneg tolPct
  have hle := le_abs_self tolPct
  have htol : (100 : ℚ) * tolPct / 100 = tolPct := mul_div_cancel_left₀ tolPct (by norm_num)
  by_cases hplateau : k < 4 * lookback + 2
  · refine retests_long_eq_false_of_low ?_
    rw [candleAt_between (by omega), betweenBar_plateau (by omega) hplateau, htol]
    change 100 + tolPct < 200 + |tolPct|
    linarith
  rcases (show k = 4 * lookback + 2 ∨ k = 4 * lookback + 3 ∨ k = 4 * lookback + 4 by omega)
    with rfl | rfl | rfl
  · refine retests_long_eq_false_of_low ?_
    rw [candleAt_between (by omega), betweenBar_break, htol]
    change 100 + tolPct < 150 + |tolPct|
    linarith
  · refine retests_long_eq_false ?_
    rw [candleAt_between (by omega), betweenBar_below]
    norm_num
  · refine retests_long_eq_false ?_
    rw [candleAt_between (by omega), betweenBar_last, hquiet rfl]
    norm_num

theorem between_before {idx : ℕ} (hpos : 0 < lookback) (hfirst : 2 * lookback ≤ idx)
    (hlast : idx < 4 * lookback + 2) :
    attemptAt (between lookback tolPct false) retestWindow tolPct idx
      (fractalBreaks (between lookback tolPct false) lookback idx) = none := by
  refine List.findSome?_eq_none_iff.2 fun b hb => ?_
  obtain ⟨hside, hlevel⟩ := fractalBreaks_between hpos hfirst hlast b hb
  rw [hside, hlevel, findRetest_eq_none fun j hj hlength => ?_]
  · rfl
  · rw [length_between] at hlength
    exact retests_between (by omega) (by omega) fun _ => rfl

theorem between_quiet (hpos : 0 < lookback) (hwindow : 0 < retestWindow) :
    attemptAt (between lookback tolPct false) retestWindow tolPct (4 * lookback + 2)
      (fractalBreaks (between lookback tolPct false) lookback (4 * lookback + 2)) =
      some (4 * lookback + 3, .short, "fractal_break_retest_short") := by
  have habs := abs_nonneg tolPct
  have hlong : findRetest (between lookback tolPct false) (4 * lookback + 2) retestWindow 100 tolPct
      .long = none := by
    refine findRetest_eq_none fun j hj hlength => ?_
    rw [length_between] at hlength
    exact retests_between (by omega) (by omega) fun _ => rfl
  have hretests : retests (between lookback tolPct false) .short (200 + |tolPct|) tolPct
      (4 * lookback + 3) = true := by
    rw [retests_short_eq_true] <;> rw [candleAt_between (by omega), betweenBar_below]
    change (90 : ℚ) < 200 + |tolPct|
    linarith
  have hshort : findRetest (between lookback tolPct false) (4 * lookback + 2) retestWindow
      (200 + |tolPct|) tolPct .short = some (4 * lookback + 3) :=
    findRetest_eq_some (by omega) (by omega) (by rw [length_between]; omega) hretests
      fun j hfirst hlast => by omega
  rw [fractalBreaks_break hpos, attemptAt, List.findSome?_cons, List.findSome?_cons, hlong, hshort]
  rfl

theorem between_reclaim (hpos : 0 < lookback) (hwindow : 2 ≤ retestWindow) :
    attemptAt (between lookback tolPct true) retestWindow tolPct (4 * lookback + 2)
      (fractalBreaks (between lookback tolPct true) lookback (4 * lookback + 2)) =
      some (4 * lookback + 4, .long, "fractal_break_retest_long") := by
  have hretests : retests (between lookback tolPct true) .long 100 tolPct (4 * lookback + 4) =
      true := by
    have htol : (100 : ℚ) * tolPct / 100 = tolPct := mul_div_cancel_left₀ tolPct (by norm_num)
    rw [retests_long_eq_true] <;> rw [candleAt_between (by omega), betweenBar_last, if_pos rfl]
    · rw [htol]
    · norm_num
  have hlong : findRetest (between lookback tolPct true) (4 * lookback + 2) retestWindow 100 tolPct
      .long = some (4 * lookback + 4) :=
    findRetest_eq_some (by omega) (by omega) (by rw [length_between]; omega) hretests
      fun j hfirst hlast => retests_between (by omega) (by omega) fun h => by omega
  rw [fractalBreaks_break hpos, attemptAt, List.findSome?_cons, hlong]
  rfl

theorem agreeTo_between (lookback : ℕ) (tolPct : ℚ) :
    AgreeTo (4 * lookback + 4) (between lookback tolPct false) (between lookback tolPct true) := by
  refine agreeTo_candlesOf (by omega) (by omega) fun k hk => ?_
  have hne : k ≠ 4 * lookback + 4 := hk.ne
  simp [betweenBar, hne]

section Signals

variable {params : StrategyParams}

/-- The loop reaches the break, and its retest from below gives a signal. -/
theorem mem_signals_between (hparams : PositiveWindows params) :
    ⟨4 * params.int "swing_lookback" 3 + 4, .short, "fractal_break_retest_short"⟩ ∈
      signalsFractalSwingBreakRetest (between (params.int "swing_lookback" 3)
        (params.float "retest_tol_pct" 1) false) params := by
  have hpos : 0 < params.int "swing_lookback" 3 := int_pos hparams (by decide)
  have hwindow : 0 < params.int "retest_window" 5 := int_pos hparams (by decide)
  rw [signalsFractalSwingBreakRetest, length_between]
  generalize params.int "swing_lookback" 3 = lookback at *
  have hrounds : 4 * lookback + 6 - 1 = 2 * lookback + 2 + 1 + (2 * lookback + 2) := by omega
  have hstart : lookback * 2 + (2 * lookback + 2) = 4 * lookback + 2 := by omega
  have hstop : 4 * lookback + 2 < 2 * lookback + 2 + 1 + (2 * lookback + 2) := by omega
  rw [hrounds, retestLoop_skip _ _ (fun idx hfirst hlast => between_before hpos (by omega) (by omega))
    (by omega), hstart, retestLoop_eq_cons hstop (between_quiet hpos hwindow)]
  exact List.mem_cons_self

/-- The retest from above comes first in the search and jumps over the one from below. -/
theorem not_mem_signals_between (hparams : PositiveWindows params)
    (hwindow : 2 ≤ params.int "retest_window" 5) (side : Side) (reason : String) :
    ⟨4 * params.int "swing_lookback" 3 + 4, side, reason⟩ ∉
      signalsFractalSwingBreakRetest (between (params.int "swing_lookback" 3)
        (params.float "retest_tol_pct" 1) true) params := by
  have hpos : 0 < params.int "swing_lookback" 3 := int_pos hparams (by decide)
  intro hmem
  obtain ⟨i, hit, hfirst, hstop, hattempt, hidx⟩ :=
    mem_retestLoop (fun idx _ hit hhit => (attemptAt_bounds hhit).1) _ _ le_rfl hmem
  have hgt := (attemptAt_bounds hattempt).1
  dsimp only at hidx hattempt
  rcases (show i < 4 * params.int "swing_lookback" 3 + 2 ∨
      i = 4 * params.int "swing_lookback" 3 + 2 by omega) with hlt | rfl
  · obtain ⟨b, hb, hfind⟩ := List.exists_of_findSome?_eq_some hattempt
    obtain ⟨j, hj, rfl⟩ := Option.map_eq_some_iff.1 hfind
    obtain ⟨hside, hlevel⟩ := fractalBreaks_between hpos (by omega) hlt b hb
    rw [hside, hlevel] at hj
    obtain ⟨-, -, hretests, -⟩ := find?_arange_eq_some.1 hj
    dsimp only at hidx
    rw [retests_between (by omega) (by omega) fun h => by omega] at hretests
    cases hretests
  · rw [between_reclaim hpos hwindow] at hattempt
    obtain rfl := Option.some.inj hattempt
    dsimp only at hidx
    omega

end Signals

end Between

/-! ## When a generator looks back only -/

section Main

variable {definition : StrategyDef} {params : StrategyParams}

theorem breakoutRetest_causal (hparams : PositiveWindows params)
    (h : NoLookAhead breakoutRetest params) : params.int "retest_window" 5 ≤ 2 := by
  by_contra hwindow
  have hagree := agreeTo_takenBack (params.int "lookback" 20) (params.float "retest_tol_pct" 1)
  have hmem := (h _ _ _ regimeDefaults hagree.take (by rw [length_takenBack]; omega)
    (by rw [length_takenBack]; omega) .short "retest_hold_resistance" _).1
    (mem_annotateSignalsWithRegime.2 ⟨mem_signals_quiet hparams, rfl⟩)
  obtain ⟨hsignal, -⟩ := mem_annotateSignalsWithRegime.1 hmem
  have hsignals := signals_reclaim hparams (by omega)
  change _ ∈ signalsBreakoutRetest _ _ at hsignal
  rw [hsignals, List.mem_singleton] at hsignal
  have hside := congrArg Signal.side hsignal
  cases hside

theorem fractal_causal (hparams : PositiveWindows params)
    (h : NoLookAhead fractalSwingBreakRetest params) : params.int "retest_window" 5 ≤ 1 := by
  by_contra hwindow
  have hagree := agreeTo_between (params.int "swing_lookback" 3) (params.float "retest_tol_pct" 1)
  have hmem := (h _ _ _ regimeDefaults hagree.take (by rw [length_between]; omega)
    (by rw [length_between]; omega) .short "fractal_break_retest_short" _).1
    (mem_annotateSignalsWithRegime.2 ⟨mem_signals_between hparams, rfl⟩)
  obtain ⟨hsignal, -⟩ := mem_annotateSignalsWithRegime.1 hmem
  exact not_mem_signals_between hparams (by omega) _ _ hsignal

/-- Which params make the signals and their regimes depend on the past only. -/
theorem causalSignals_iff (hmem : definition ∈ strategies) (hparams : PositiveWindows params) :
    NoLookAhead definition params ↔ CausalParams definition params := by
  have hretest : breakoutRetest ∈ strategies := List.mem_cons_self
  have hswing : fractalSwingBreakRetest ∈ strategies := List.mem_cons_of_mem _ List.mem_cons_self
  refine ⟨fun h => ⟨fun hid => ?_, fun hid => ?_⟩, noLookAhead_of_causalParams hmem⟩
  · obtain rfl : definition = breakoutRetest := eq_of_strategyId hmem hretest hid
    exact breakoutRetest_causal hparams h
  · obtain rfl : definition = fractalSwingBreakRetest := eq_of_strategyId hmem hswing hid
    exact fractal_causal hparams h

end Main

theorem causalSignals_iff_fractal :
    fractalSwingBreakRetest ∈ strategies ∧ PositiveWindows defaultParams ∧
      (NoLookAhead fractalSwingBreakRetest defaultParams ↔
        CausalParams fractalSwingBreakRetest defaultParams) :=
  have hmem : fractalSwingBreakRetest ∈ strategies := List.mem_cons_of_mem _ List.mem_cons_self
  ⟨hmem, positiveWindows_defaultParams, causalSignals_iff hmem positiveWindows_defaultParams⟩

theorem possibleOhlc_takenBack {lookback : ℕ} {tolPct : ℚ} {reclaims : Bool} :
    ∀ candle ∈ takenBack lookback tolPct reclaims, PossibleOhlc candle := by
  intro candle hcandle
  have habs := abs_nonneg tolPct
  obtain ⟨k, -, rfl⟩ := List.mem_map.1 hcandle
  rw [takenBackBar]
  split_ifs
  all_goals constructor <;> norm_num [flatBar, retestBar] <;> linarith

/-- With the defaults the bar behind 23 common ones takes the short signal of bar 23 back. -/
theorem default_signal_taken_back :
    PositiveWindows defaultParams ∧
      (∀ candle ∈ takenBack 20 1 false ++ takenBack 20 1 true, PossibleOhlc candle) ∧
      (takenBack 20 1 false).take 23 = (takenBack 20 1 true).take 23 ∧
      ⟨23, .short, "retest_hold_resistance"⟩ ∈
        breakoutRetest.generateSignals (takenBack 20 1 false) defaultParams ∧
      breakoutRetest.generateSignals (takenBack 20 1 true) defaultParams =
        [⟨24, .long, "retest_hold_support"⟩] ∧
      ¬ NoLookAhead breakoutRetest defaultParams := by
  have hpos := positiveWindows_defaultParams
  have hlookback : defaultParams.int "lookback" 20 = 20 := rfl
  have htol : defaultParams.float "retest_tol_pct" 1 = 1 := rfl
  have hquiet := mem_signals_quiet hpos
  have hreclaim := signals_reclaim hpos (by decide)
  have htake := (agreeTo_takenBack 20 1).take
  rw [hlookback, htol] at hquiet hreclaim
  simp only [Nat.reduceAdd] at hquiet hreclaim htake
  have hgenerate : breakoutRetest.generateSignals = signalsBreakoutRetest := rfl
  rw [hgenerate]
  refine ⟨hpos, fun candle hcandle => ?_, htake, hquiet, hreclaim, fun h => ?_⟩
  · rcases List.mem_append.1 hcandle with h | h
    · exact possibleOhlc_takenBack candle h
    · exact possibleOhlc_takenBack candle h
  · exact absurd (breakoutRetest_causal hpos h) (by decide)

end ResearchLab.Signals
