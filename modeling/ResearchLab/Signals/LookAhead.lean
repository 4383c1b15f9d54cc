import Mathlib
import ResearchLab.Signals.Causal
import ResearchLab.Signals.Regime

/-!
# Look-ahead of the retests

Two runs of a retest loop over lists that agree up to a bar. They give the same signals up to
there as long as no retest found behind the bar hides a break that is retested before it.
-/
namespace ResearchLab.Signals
open Foundation

/-! ## Two runs of a loop -/

section Loop

variable {attempt attempt' : ℕ → Option (ℕ × Side × String)} {stop stop' n : ℕ}

/-- A retest at `n` or later hides no break with a retest before `n`. -/
def NoOvertaking (attempt : ℕ → Option (ℕ × Side × String)) (n : ℕ) : Prop :=
  ∀ idx hit, attempt idx = some hit → n ≤ hit.1 →
    ∀ j hit', idx < j → attempt j = some hit' → n ≤ hit'.1

/-- The retests before `n` are the same. -/
def SameHits (attempt attempt' : ℕ → Option (ℕ × Side × String)) (n : ℕ) : Prop :=
  ∀ idx hit, hit.1 < n → (attempt idx = some hit ↔ attempt' idx = some hit)

theorem SameHits.symm (h : SameHits attempt attempt' n) : SameHits attempt' attempt n :=
  fun idx hit hlt => (h idx hit hlt).symm

def Forward (attempt : ℕ → Option (ℕ × Side × String)) : Prop :=
  ∀ idx hit, attempt idx = some hit → idx < hit.1

/-- Behind a retest at `n` or later no signal up to `n` follows. -/
theorem idx_of_mem_retestLoop {signal : Signal} {rounds first : ℕ}
    (hforward : Forward attempt) (hlate : ∀ j hit, first ≤ j → attempt j = some hit → n ≤ hit.1)
    (h : signal ∈ retestLoop attempt stop rounds first) : n < signal.idx := by
  obtain ⟨i, hit, hfirst, -, hattempt, hsignal⟩ :=
    mem_retestLoop (fun idx _ hit hhit => hforward idx hit hhit) rounds first le_rfl h
  have := hlate i hit hfirst hattempt
  omega

/-- Two lists of signals that all lie behind `n`. -/
theorem sameSignals_of_late {signals signals' : List Signal}
    (h : ∀ signal ∈ signals, n < signal.idx) (h' : ∀ signal ∈ signals', n < signal.idx) :
    SameSignals n signals signals' := by
  intro signal hsignal
  constructor
  · intro hmem
    exact absurd (h signal hmem) (not_lt.2 hsignal)
  · intro hmem
    exact absurd (h' signal hmem) (not_lt.2 hsignal)

theorem SameSignals.cons {signals signals' : List Signal} (signal : Signal)
    (h : SameSignals n signals signals') : SameSignals n (signal :: signals) (signal :: signals') := by
  intro other hother
  rw [List.mem_cons, List.mem_cons, h other hother]

/-- When one loop finds a retest at `n` or later, neither has a signal up to `n` any more. -/
theorem late_of_hit {hit : ℕ × Side × String} {first rounds : ℕ}
    (hforward' : Forward attempt') (hsame : SameHits attempt attempt' n)
    (hno : NoOvertaking attempt n) (hattempt : attempt first = some hit) (hlate : n ≤ hit.1)
    {signal : Signal} (h : signal ∈ retestLoop attempt' stop' rounds first) : n < signal.idx := by
  refine idx_of_mem_retestLoop hforward' (fun j hit' hj hhit' => ?_) h
  by_contra hearly
  have hhit := (hsame j hit' (not_le.1 hearly)).2 hhit'
  rcases hj.eq_or_lt with rfl | hj
  · rw [hattempt] at hhit
    obtain rfl := Option.some.inj hhit
    exact hearly hlate
  · exact hearly (hno first hit hattempt hlate j hit' hj hhit)

/-- Two loops with the same retests before `n` give the same signals up to `n`, provided that no
retest is overtaken. -/
theorem retestLoop_agree (hforward : Forward attempt) (hforward' : Forward attempt')
    (hsame : SameHits attempt attempt' n) (hno : NoOvertaking attempt n)
    (hno' : NoOvertaking attempt' n) (hstop : n ≤ stop) (hstop' : n ≤ stop') :
    ∀ rounds rounds' first, stop ≤ first + rounds → stop' ≤ first + rounds' →
      SameSignals n (retestLoop attempt stop rounds first)
        (retestLoop attempt' stop' rounds' first) := by
  intro rounds
  induction rounds with
  | zero =>
    intro rounds' first hrounds hrounds'
    refine sameSignals_of_late (fun _ h => by cases h) fun _ h => ?_
    refine idx_of_mem_retestLoop hforward' (fun j hit hj hhit => ?_) h
    have := hforward' j hit hhit
    omega
  | succ rounds ih =>
    intro rounds' first hrounds hrounds'
    by_cases hfirst : n ≤ first
    · refine sameSignals_of_late (fun _ h => ?_) fun _ h => ?_
      · refine idx_of_mem_retestLoop hforward (fun j hit hj hhit => ?_) h
        have := hforward j hit hhit
        omega
      · refine idx_of_mem_retestLoop hforward' (fun j hit hj hhit => ?_) h
        have := hforward' j hit hhit
        omega
    obtain ⟨r, rfl⟩ : ∃ r, rounds' = r + 1 := ⟨rounds' - 1, by omega⟩
    have hlt : first < stop := by omega
    have hlt' : first < stop' := by omega
    cases hattempt : attempt first with
    | none =>
      cases hattempt' : attempt' first with
      | none =>
        rw [retestLoop_eq_next hlt hattempt, retestLoop_eq_next hlt' hattempt']
        exact ih r (first + 1) (by omega) (by omega)
      | some hit' =>
        have hlate : n ≤ hit'.1 := by
          by_contra hearly
          rw [(hsame first hit' (not_le.1 hearly)).2 hattempt'] at hattempt
          cases hattempt
        exact sameSignals_of_late
          (fun _ h => late_of_hit hforward hsame.symm hno' hattempt' hlate h)
          fun _ h => late_of_hit hforward' (fun _ _ _ => Iff.rfl) hno' hattempt' hlate h
    | some hit =>
      by_cases hlate : n ≤ hit.1
      · exact sameSignals_of_late
          (fun _ h => late_of_hit hforward (fun _ _ _ => Iff.rfl) hno hattempt hlate h)
          fun _ h => late_of_hit hforward' hsame hno hattempt hlate h
      · have hattempt' := (hsame first hit (not_le.1 hlate)).1 hattempt
        have hgt := hforward first hit hattempt
        obtain ⟨j, side, reason⟩ := hit
        rw [retestLoop_eq_cons hlt hattempt, retestLoop_eq_cons hlt' hattempt']
        exact (ih r (j + 1) (by omega) (by omega)).cons _

end Loop

/-! ## Retests on two lists -/

section Retests

variable {candles candles' : List Candle} {n idx retestWindow lookback : ℕ} {tolPct level : ℚ}
  {side : Side}

theorem retests_agree (h : AgreeTo n candles candles') (hidx : idx < n) :
    retests candles side level tolPct idx = retests candles' side level tolPct idx := by
  cases side <;> simp only [retests, candleAt_agree h hidx]

theorem attemptAt_forward (breaks : ℕ → List Break) :
    Forward fun idx => attemptAt candles retestWindow tolPct idx (breaks idx) :=
  fun _ _ hhit => (attemptAt_bounds hhit).1

/-- A retest before `n` is found on both lists. -/
theorem findRetest_agree (h : AgreeTo n candles candles') (hright : n < candles'.length) {hit : ℕ}
    (hhit : hit < n) (hfind : findRetest candles idx retestWindow level tolPct side = some hit) :
    findRetest candles' idx retestWindow level tolPct side = some hit := by
  rw [findRetest, find?_arange_eq_some] at hfind ⊢
  obtain ⟨hstart, hstop, hretests, hbefore⟩ := hfind
  refine ⟨hstart, by omega, ?_, fun k hk hlt => ?_⟩
  · rwa [← retests_agree h hhit]
  · rw [← retests_agree h (hlt.trans hhit)]
    exact hbefore k hk hlt

theorem findRetest_le {hit : ℕ}
    (hfind : findRetest candles idx retestWindow level tolPct side = some hit) :
    hit ≤ idx + retestWindow := by
  rw [findRetest, find?_arange_eq_some] at hfind
  omega

theorem attemptAt_le {hit : ℕ × Side × String} {breaks : List Break}
    (h : attemptAt candles retestWindow tolPct idx breaks = some hit) :
    hit.1 ≤ idx + retestWindow := by
  obtain ⟨b, -, hb⟩ := List.exists_of_findSome?_eq_some h
  obtain ⟨j, hj, rfl⟩ := Option.map_eq_some_iff.1 hb
  exact findRetest_le hj

/-- Within two bars a retest overtakes nothing. -/
theorem noOvertaking_of_le_two (hwindow : retestWindow ≤ 2) (breaks : ℕ → List Break) :
    NoOvertaking (fun idx => attemptAt candles retestWindow tolPct idx (breaks idx)) n := by
  intro idx hit hhit hlate j hit' hj hhit'
  have hle := attemptAt_le hhit
  have hgt := (attemptAt_bounds hhit').1
  omega

/-! ### One break for each bar -/

theorem breakoutBreaks_agree (h : AgreeTo n candles candles') (hidx : idx < n) :
    breakoutBreaks candles lookback idx = breakoutBreaks candles' lookback idx := by
  rw [breakoutBreaks, breakoutBreaks, windowHigh_agree h hidx.le, windowLow_agree h hidx.le,
    candleAt_agree h hidx]

theorem breakoutBreaks_length : (breakoutBreaks candles lookback idx).length ≤ 1 := by
  rw [breakoutBreaks]
  split
  · split
    · exact le_rfl
    · split
      · exact le_rfl
      · exact Nat.zero_le 1
  · exact Nat.zero_le 1

theorem attemptAt_agree_of_single (h : AgreeTo n candles candles') (hright : n < candles'.length)
    {breaks : List Break} (hsingle : breaks.length ≤ 1) {hit : ℕ × Side × String} (hhit : hit.1 < n)
    (hattempt : attemptAt candles retestWindow tolPct idx breaks = some hit) :
    attemptAt candles' retestWindow tolPct idx breaks = some hit := by
  obtain ⟨b, hb, hfind⟩ := List.exists_of_findSome?_eq_some hattempt
  obtain ⟨j, hj, rfl⟩ := Option.map_eq_some_iff.1 hfind
  obtain ⟨c, rfl⟩ := List.length_eq_one_iff.1
    (le_antisymm hsingle (List.length_pos_of_mem hb))
  obtain rfl := List.mem_singleton.1 hb
  rw [attemptAt, List.findSome?_cons, findRetest_agree h hright hhit hj]
  rfl

theorem breakoutRetest_sameHits (h : AgreeTo n candles candles') (hleft : n < candles.length)
    (hright : n < candles'.length) :
    SameHits
      (fun idx => attemptAt candles retestWindow tolPct idx (breakoutBreaks candles lookback idx))
      (fun idx => attemptAt candles' retestWindow tolPct idx (breakoutBreaks candles' lookback idx))
      n := by
  intro idx hit hhit
  constructor
  · intro hattempt
    have hidx : idx < n := (attemptAt_bounds hattempt).1.trans hhit
    dsimp only
    rw [← breakoutBreaks_agree h hidx]
    exact attemptAt_agree_of_single h hright breakoutBreaks_length hhit hattempt
  · intro hattempt
    have hidx : idx < n := (attemptAt_bounds hattempt).1.trans hhit
    dsimp only
    rw [breakoutBreaks_agree h hidx]
    exact attemptAt_agree_of_single h.symm hleft breakoutBreaks_length hhit hattempt

theorem breakoutRetest_agree (h : AgreeTo n candles candles') (hleft : n < candles.length)
    (hright : n < candles'.length) {params : StrategyParams}
    (hwindow : params.int "retest_window" 5 ≤ 2) :
    SameSignals n (signalsBreakoutRetest candles params) (signalsBreakoutRetest candles' params) :=
  retestLoop_agree (attemptAt_forward _) (attemptAt_forward _)
    (breakoutRetest_sameHits h hleft hright) (noOvertaking_of_le_two hwindow _)
    (noOvertaking_of_le_two hwindow _) (by omega) (by omega) _ _ _ (by omega) (by omega)

/-! ### Two breaks for one bar -/

/-- The pivots confirmed up to a bar are those among the bars `lookback` before it. -/
theorem takeWhile_confirmed {F : ℕ → Option (ℕ × ℚ)} {p : ℕ × ℚ → Bool} {m : ℕ}
    (hp : ∀ i pivot, F i = some pivot → (p pivot = true ↔ i < m)) (stop : ℕ) :
    ∀ k start, stop - start = k →
      ((arange start stop).filterMap F).takeWhile p = (arange start (min stop m)).filterMap F := by
  intro k
  induction k with
  | zero =>
    intro start hk
    rw [arange_eq_nil (by omega), arange_eq_nil (by omega)]
    rfl
  | succ k ih =>
    intro start hk
    by_cases hm : start < m
    · rw [arange_eq_cons (by omega), arange_eq_cons (show start < min stop m by omega),
        List.filterMap_cons, List.filterMap_cons]
      cases hF : F start with
      | none => exact ih (start + 1) (by omega)
      | some pivot =>
        have htrue := (hp start pivot hF).2 hm
        simp only [List.takeWhile_cons_of_pos htrue, ih (start + 1) (by omega)]
    · rw [arange_eq_nil (show min stop m ≤ start by omega), List.filterMap_nil,
        List.takeWhile_eq_nil_iff]
      intro hpos hfirst
      obtain ⟨i, hi, hF⟩ := List.mem_filterMap.1 (List.getElem_mem hpos)
      have := (hp i _ hF).1 hfirst
      have := (mem_arange.1 hi).1
      omega

theorem lastLevel_confirmedPivots {values : List ℚ} {isPivot : ℚ → List ℚ → Bool} {asOf : ℕ}
    (hasOf : asOf < values.length) :
    lastLevel (confirmedPivots values lookback isPivot) asOf =
      (((arange lookback (asOf + 1 - lookback)).filterMap fun i =>
        if isPivot (values.getD i 0) (slice values (i - lookback) (i + lookback + 1)) then
          some (i + lookback, values.getD i 0)
        else none).getLast?).map Prod.snd := by
  have hmin : min (values.length - lookback) (asOf + 1 - lookback) = asOf + 1 - lookback := by
    omega
  rw [lastLevel, confirmedPivots, takeWhile_confirmed (fun i pivot hF => ?_) _ _ _ rfl, hmin]
  obtain ⟨-, hpivot⟩ := Option.ite_none_right_eq_some.1 hF
  obtain rfl := Option.some.inj hpivot
  simp only [decide_eq_true_eq]
  omega

theorem lastLevel_agree {values values' : List ℚ} {isPivot : ℚ → List ℚ → Bool} {asOf : ℕ}
    (h : AgreeTo n values values') (hasOf : asOf < n) :
    lastLevel (confirmedPivots values lookback isPivot) asOf =
      lastLevel (confirmedPivots values' lookback isPivot) asOf := by
  rw [lastLevel_confirmedPivots (hasOf.trans_le h.left),
    lastLevel_confirmedPivots (hasOf.trans_le h.right)]
  congr 2
  refine List.filterMap_congr fun i hi => ?_
  have hlast := (mem_arange.1 hi).2
  rw [h.getD (show i < n by omega), h.slice _ (show i + lookback + 1 ≤ n by omega)]

theorem fractalBreaks_agree (h : AgreeTo n candles candles') (hidx : idx < n) :
    fractalBreaks candles lookback idx = fractalBreaks candles' lookback idx := by
  have hhighs : lastLevel (confirmedHighs candles lookback) idx =
      lastLevel (confirmedHighs candles' lookback) idx := lastLevel_agree (h.map _) hidx
  have hlows : lastLevel (confirmedLows candles lookback) idx =
      lastLevel (confirmedLows candles' lookback) idx := lastLevel_agree (h.map _) hidx
  rw [fractalBreaks, fractalBreaks, hhighs, hlows, candleAt_agree h hidx]

/-- Within one bar the order of the breaks is settled at once. -/
theorem findRetest_agree_of_next (h : AgreeTo n candles candles') (hleft : n < candles.length)
    (hright : n < candles'.length) (hwindow : retestWindow ≤ 1) (hnext : idx + 1 < n) :
    findRetest candles idx retestWindow level tolPct side =
      findRetest candles' idx retestWindow level tolPct side := by
  have hstop : min (idx + 1 + retestWindow) (candles.length - 1) = idx + 1 + retestWindow := by
    omega
  have hstop' : min (idx + 1 + retestWindow) (candles'.length - 1) = idx + 1 + retestWindow := by
    omega
  rw [findRetest, findRetest, hstop, hstop']
  refine List.find?_congr fun j hj => ?_
  have hlt := (mem_arange.1 hj).2
  exact retests_agree h (by omega)

theorem fractal_sameHits (h : AgreeTo n candles candles') (hleft : n < candles.length)
    (hright : n < candles'.length) (hwindow : retestWindow ≤ 1) :
    SameHits
      (fun idx => attemptAt candles retestWindow tolPct idx (fractalBreaks candles lookback idx))
      (fun idx => attemptAt candles' retestWindow tolPct idx (fractalBreaks candles' lookback idx))
      n := by
  intro idx hit hhit
  by_cases hnext : idx + 1 < n
  · simp only [attemptAt, fractalBreaks_agree h (show idx < n by omega),
      findRetest_agree_of_next h hleft hright hwindow hnext]
  · constructor
    · intro hattempt
      have := (attemptAt_bounds hattempt).1
      omega
    · intro hattempt
      have := (attemptAt_bounds hattempt).1
      omega

theorem fractal_agree (h : AgreeTo n candles candles') (hleft : n < candles.length)
    (hright : n < candles'.length) {params : StrategyParams}
    (hwindow : params.int "retest_window" 5 ≤ 1) :
    SameSignals n (signalsFractalSwingBreakRetest candles params)
      (signalsFractalSwingBreakRetest candles' params) :=
  retestLoop_agree (attemptAt_forward _) (attemptAt_forward _)
    (fractal_sameHits h hleft hright hwindow) (noOvertaking_of_le_two (by omega) _)
    (noOvertaking_of_le_two (by omega) _) (by omega) (by omega) _ _ _ (by omega) (by omega)

end Retests

end ResearchLab.Signals
