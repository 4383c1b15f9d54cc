import Mathlib
import ResearchLab.Simulation.Acceptance
import ResearchLab.Simulation.Agreement
import ResearchLab.Simulation.ExitPhase2

/-!
# The two simulators of dynamic exits

`simulate_exit_mode` under a mode of its grid and `simulate_trades` under the mode of the same name
round the parameters of the mode differently, and build partial trades by different code. Where
neither shows, they return the same trades.
-/
namespace ResearchLab.Simulation
open Foundation

structure PositivePrices (bar : Candle) : Prop where
  open_pos : 0 < bar.openPrice
  high_pos : 0 < bar.high
  low_pos : 0 < bar.low
  close_pos : 0 < bar.close

/-- Positive distances of the stop and of the take-profit, and bars to hold. -/
structure PositiveParams (params : Params) (stop take : ℚ) (hold : ℤ) : Prop where
  stop_eq : params.stopPct = some stop
  take_eq : params.takePct = some take
  hold_eq : params.holdBars = some hold
  stop_pos : 0 < stop
  take_pos : 0 < take
  hold_pos : 0 < hold

/-- `{**params, "exit_mode": name}`. -/
def withExitMode (params : Params) (name : String) : Params := { params with exitMode := some name }

/-- Both simulators return, and what is read of their trades is the same. -/
def ExitsAgree (sha256 : String → String) (candles : List Candle) (signals : List Signal)
    (params : Params) (name : String) (mode : ExitMode) (costs : Costs)
    (requireCompleteHorizon : Bool) : Prop :=
  ∃ ts us, simulateExitMode sha256 candles signals params mode costs requireCompleteHorizon = .ok ts ∧
    simulateTrades sha256 candles signals (withExitMode params name) costs requireCompleteHorizon =
      .ok us ∧
    ts.map ExitModeTrade.reading = us.map Trade.reading

/-! ## When the roundings do not show -/

/-- The smaller of two percentages of which a level is taken; 0 gives no level. -/
def tighter (p q : ℚ) : ℚ := if p ≤ 0 then q else if q ≤ 0 then p else min p q

/-- The roundings of a trailing distance are the same, or even the shorter one never leads a stop
past the initial stop before the take-profit is touched. -/
def TrailsAlike (stop take pct : ℚ) : Prop :=
  roundTo 4 pct = roundTo 6 pct ∨
    1 + stop / 100 ≤ (1 - take / 100) * (1 + tighter (roundTo 4 pct) (roundTo 6 pct) / 100)

instance trailsAlikeDecidable (stop take pct : ℚ) : Decidable (TrailsAlike stop take pct) :=
  inferInstanceAs (Decidable (_ ∨ _))

/-- The mode of the name has the same exits under both roundings of its parameters, and is not
the partial one. -/
def RoundsAlike (name : String) (stop take : ℚ) : Prop :=
  if name = "early_tp" then roundTo 4 (take * (1 / 2)) = roundTo 6 (take * (1 / 2))
  else if name = "trailing" then TrailsAlike stop take stop
  else if name = "trailing_tight" then TrailsAlike stop take (stop * (1 / 2))
  else if name = "break_even" then
    roundTo 4 stop = roundTo 6 stop ∨ take ≤ tighter (roundTo 4 stop) (roundTo 6 stop)
  else name ≠ "partial_tp"

instance roundsAlikeDecidable (name : String) (stop take : ℚ) :
    Decidable (RoundsAlike name stop take) := by
  unfold RoundsAlike
  infer_instance

/-- Of two different percentages one is the tighter, and the other gives a wider level or none. -/
theorem tighter_cases {p q : ℚ} (hp : 0 ≤ p) (hq : 0 ≤ q) (h : p ≠ q) :
    (0 < p ∧ tighter p q = p ∧ (q ≤ 0 ∨ p < q)) ∨ (0 < q ∧ tighter p q = q ∧ (p ≤ 0 ∨ q < p)) := by
  unfold tighter
  rcases hp.eq_or_lt with rfl | hp
  · exact .inr ⟨lt_of_le_of_ne hq h, if_pos le_rfl, .inl le_rfl⟩
  rw [if_neg (not_le.2 hp)]
  rcases hq.eq_or_lt with rfl | hq
  · exact .inl ⟨hp, if_pos le_rfl, .inl le_rfl⟩
  rw [if_neg (not_le.2 hq)]
  rcases lt_or_gt_of_ne h with h | h
  · exact .inl ⟨hp, min_eq_left h.le, .inr h⟩
  · exact .inr ⟨hq, min_eq_right h.le, .inr h⟩

theorem tighter_le {p q : ℚ} (hp : 0 < p) : tighter p q ≤ p := by
  unfold tighter
  rw [if_neg (not_le.2 hp)]
  split_ifs with hq
  · exact le_rfl
  · exact min_le_left _ _

theorem tighter_comm {p q : ℚ} (hp : 0 ≤ p) (hq : 0 ≤ q) : tighter p q = tighter q p := by
  rcases eq_or_ne p q with rfl | h
  · rfl
  unfold tighter
  rcases hp.eq_or_lt with rfl | hp
  · rw [if_pos le_rfl, if_neg (not_le.2 (lt_of_le_of_ne hq h)), if_pos le_rfl]
  rcases hq.eq_or_lt with rfl | hq
  · rw [if_neg (not_le.2 hp), if_pos le_rfl, if_pos le_rfl]
  rw [if_neg (not_le.2 hp), if_neg (not_le.2 hq), if_neg (not_le.2 hq), if_neg (not_le.2 hp),
    min_comm]

theorem roundTo_nonneg {digits : ℕ} {q : ℚ} (h : 0 ≤ q) : 0 ≤ roundTo digits q := by
  have := roundTo_mono digits h
  rwa [roundTo_zero] at this

/-! ## Levels that are never reached -/

section
variable {long : Bool} {entry stopPct takePct water : ℚ} {bar : Candle}

/-- A level of 0 is touched by no positive price. -/
theorem filter_truthy (l : Option ℚ) (touched : Candle → ℚ → Bool) (bar : Candle)
    (h : l = some 0 → touched bar 0 = false) :
    (truthy l).filter (touched bar) = l.filter (touched bar) := by
  cases l with
  | none => rfl
  | some x =>
    by_cases hx : x = 0
    · subst hx
      simp [truthy, Option.filter_some, h rfl]
    · simp [truthy, Option.filter_some, hx]

theorem level_up_ne_zero (hentry : 0 < entry) (pct : ℚ) : level entry pct true ≠ some 0 := by
  intro h
  simp only [level, if_true] at h
  split_ifs at h with hpct
  have hup : 0 < pct := not_le.1 hpct
  have hpos : 0 < entry * (1 + pct / 100) := by positivity
  exact hpos.ne' (Option.some.inj h)

/-- With positive prices the baseline scans like the mode with fixed levels. -/
theorem baselineExit_eq_scan {candles : List Candle} {idx cap : ℕ} {side : String}
    (hbars : ∀ bar ∈ candles, PositivePrices bar) (hentry : 0 < entry) :
    scanDynamicExit candles idx cap entry side stopPct takePct (.fixed none) =
      baselineExit candles idx cap entry side stopPct takePct := by
  refine congrArg (exitOf candles idx cap) ?_
  refine Scanner.run_congr
    (R := fun st _ => st.stop = level entry stopPct !(isLong side)) rfl fun st _ bar hbar hst => ?_
  have hpos := hbars bar (mem_barsBetween hbar)
  refine ⟨?_, fun _ => hst⟩
  have hstop := filter_truthy (level entry stopPct !(isLong side)) (stopTouched (isLong side)) bar
    (fun h => by
      cases hlong : isLong side with
      | true => simp [stopTouched, hpos.low_pos]
      | false =>
        rw [hlong] at h
        exact absurd h (level_up_ne_zero hentry stopPct))
  have htake := filter_truthy (level entry takePct (isLong side)) (takeTouched (isLong side)) bar
    (fun h => by
      cases hlong : isLong side with
      | false => simp [takeTouched, hpos.low_pos]
      | true =>
        rw [hlong] at h
        exact absurd h (level_up_ne_zero hentry takePct))
  simp only [dynamicScanner, baselineScanner, hst, hstop, htake, scanTakePct]
  rfl

/-- The best price of an open position: not worse than the entry, and short of the take-profit. -/
def BeforeTake (long : Bool) (entry takePct water : ℚ) : Prop :=
  if long then entry ≤ water ∧ water < entry * (1 + takePct / 100)
  else (0 < water ∧ entry * (1 - takePct / 100) < water) ∧ water ≤ entry

theorem beforeTake_entry (hentry : 0 < entry) (htake : 0 < takePct) :
    BeforeTake long entry takePct entry := by
  have h : 0 < entry * (takePct / 100) := by positivity
  cases long with
  | true => exact ⟨le_rfl, by linarith⟩
  | false => exact ⟨⟨hentry, by linarith⟩, le_rfl⟩

/-- A bar that does not leave by the take-profit keeps the best price short of it. -/
theorem beforeTake_next (hbar : PositivePrices bar) (htake : 0 < takePct)
    (h : BeforeTake long entry takePct water)
    (hopen : (level entry takePct long).filter (takeTouched long bar) = none) :
    BeforeTake long entry takePct (if long then max water bar.high else min water bar.low) := by
  rw [level, if_neg (not_le.2 htake), Option.filter_some] at hopen
  cases long with
  | true =>
    have hhigh : bar.high < entry * (1 + takePct / 100) := by simpa [takeTouched] using hopen
    exact ⟨h.1.trans (le_max_left _ _), max_lt h.2 hhigh⟩
  | false =>
    have hlow : entry * (1 - takePct / 100) < bar.low := by simpa [takeTouched] using hopen
    exact ⟨⟨lt_min h.1.1 hbar.low_pos, lt_min h.1.2 hlow⟩, (min_le_left _ _).trans h.2⟩

/-- Two stops at one price, or of a long position at no price. -/
def SameStop (long : Bool) (s t : Option ℚ) : Prop :=
  s = t ∨ (long = true ∧ ∃ x y, s = some x ∧ t = some y ∧ x ≤ 0 ∧ y ≤ 0)

theorem SameStop.filter_eq {s t : Option ℚ} (h : SameStop long s t) (hbar : PositivePrices bar) :
    s.filter (stopTouched long bar) = t.filter (stopTouched long bar) := by
  rcases h with rfl | ⟨rfl, x, y, rfl, rfl, hx, hy⟩
  · rfl
  · have hfar : ∀ z : ℚ, z ≤ 0 → stopTouched true bar z = false := fun z hz => by
      simpa [stopTouched] using hz.trans_lt hbar.low_pos
    rw [Option.filter_some, Option.filter_some, hfar x hx, hfar y hy, if_neg Bool.false_ne_true,
      if_neg Bool.false_ne_true]

/-- Before the take-profit is touched the rule keeps the initial stop. -/
def Still (rule : ExitRule) (long : Bool) (entry stopPct takePct : ℚ) : Prop :=
  ∀ st water span, BeforeTake long entry takePct water →
    SameStop long st.stop (level entry stopPct !long) →
    SameStop long (moveStop rule long entry stopPct span (level entry stopPct !long) water st)
      (level entry stopPct !long)

/-- Two rules that keep the initial stop have the same exits. -/
theorem scan_eq_of_still {candles : List Candle} {idx cap : ℕ} {side : String}
    {rule rule' : ExitRule} (hbars : ∀ bar ∈ candles, PositivePrices bar) (hentry : 0 < entry)
    (htake : 0 < takePct) (hpct : scanTakePct rule takePct = takePct)
    (hpct' : scanTakePct rule' takePct = takePct) (hout : stopOutcome rule = stopOutcome rule')
    (hstill : Still rule (isLong side) entry stopPct takePct)
    (hstill' : Still rule' (isLong side) entry stopPct takePct) :
    scanDynamicExit candles idx cap entry side stopPct takePct rule =
      scanDynamicExit candles idx cap entry side stopPct takePct rule' := by
  refine congrArg (exitOf candles idx cap) ?_
  rw [hpct, hpct']
  refine Scanner.run_congr (R := fun st st' : ScanState => st.water = st'.water ∧
    BeforeTake (isLong side) entry takePct st'.water ∧
      SameStop (isLong side) st.stop (level entry stopPct !(isLong side)) ∧
      SameStop (isLong side) st'.stop (level entry stopPct !(isLong side)))
    ⟨rfl, beforeTake_entry hentry htake, .inl rfl, .inl rfl⟩ ?_
  rintro st st' bar hbar ⟨hwater, hbefore, hstop, hstop'⟩
  have hpos := hbars bar (mem_barsBetween hbar)
  have hfilter : st.stop.filter (stopTouched (isLong side) bar) =
      st'.stop.filter (stopTouched (isLong side) bar) :=
    (hstop.filter_eq hpos).trans (hstop'.filter_eq hpos).symm
  refine ⟨by simp only [dynamicScanner, hfilter, hout], fun hopen => ?_⟩
  have htaken : (level entry takePct (isLong side)).filter (takeTouched (isLong side) bar) = none := by
    simp only [dynamicScanner] at hopen
    split at hopen
    · cases hopen
    · exact Option.map_eq_none_iff.1 hopen
  have hnext := beforeTake_next hpos htake hbefore htaken
  refine ⟨?_, hnext, ?_, hstill' st' _ _ hnext hstop'⟩
  · simp only [dynamicScanner, hwater]
  · refine hstill st _ _ ?_ hstop
    rw [hwater]
    exact hnext

/-! ## Rules that keep the initial stop -/

theorem still_of_nonpos {pct : ℚ} (h : pct ≤ 0) : Still (.trailing pct) long entry stopPct takePct ∧
    Still (.breakEven pct) long entry stopPct takePct := by
  constructor <;> intro st water span _ hstop
  · simpa only [moveStop, level, if_pos h] using hstop
  · simpa only [moveStop, level, if_pos h] using hstop

/-- A trigger at the take-profit or behind it is not reached. -/
theorem still_breakEven {pct : ℚ} (hentry : 0 < entry) (htake : 0 < takePct) (h : takePct ≤ pct) :
    Still (.breakEven pct) long entry stopPct takePct := by
  intro st water span hbefore hstop
  have hle : entry * takePct ≤ entry * pct := mul_le_mul_of_nonneg_left h hentry.le
  simp only [moveStop, level, if_neg (not_le.2 (htake.trans_le h))]
  cases long with
  | true =>
    have hlt : water < entry * (1 + takePct / 100) := hbefore.2
    rw [if_neg (by simp only [if_true]; linarith)]
    exact hstop
  | false =>
    have hlt : entry * (1 - takePct / 100) < water := hbefore.1.2
    rw [if_neg (by simp only [Bool.false_eq_true, if_false]; linarith)]
    exact hstop

/-- The trailed stop of a long position stays below the initial one, or reaches no price. -/
theorem trail_long_le {s t m : ℚ} (hwater : 0 < water) (hlt : water < entry * (1 + t)) (ht : 0 < t)
    (hm : 0 < m) (h : 1 + s ≤ (1 - t) * (1 + m)) :
    water * (1 - m) ≤ entry * (1 - s) ∨ water * (1 - m) ≤ 0 := by
  rcases le_or_gt (1 - m) 0 with hneg | hpos
  · exact .inr (mul_nonpos_of_nonneg_of_nonpos hwater.le hneg)
  · left
    have hentry : 0 < entry := by
      by_contra hle
      have := mul_nonpos_of_nonpos_of_nonneg (not_lt.1 hle) (by linarith : 0 ≤ 1 + t)
      linarith
    have hbound : (1 + t) * (1 - m) ≤ 1 - s := by nlinarith [mul_pos ht hm]
    calc water * (1 - m) ≤ entry * (1 + t) * (1 - m) := by gcongr
      _ = entry * ((1 + t) * (1 - m)) := by ring
      _ ≤ entry * (1 - s) := by gcongr

/-- The trailed stop of a short position stays above the initial one. -/
theorem le_trail_short {s t m : ℚ} (hentry : 0 < entry) (hlt : entry * (1 - t) < water) (hm : 0 < m)
    (h : 1 + s ≤ (1 - t) * (1 + m)) : entry * (1 + s) ≤ water * (1 + m) := by
  calc entry * (1 + s) ≤ entry * ((1 - t) * (1 + m)) := by gcongr
    _ = entry * (1 - t) * (1 + m) := by ring
    _ ≤ water * (1 + m) := by gcongr

theorem still_trailing {pct : ℚ} (hentry : 0 < entry) (hstopPct : 0 < stopPct) (htake : 0 < takePct)
    (hpct : 0 < pct) (h : 1 + stopPct / 100 ≤ (1 - takePct / 100) * (1 + pct / 100)) :
    Still (.trailing pct) long entry stopPct takePct := by
  intro st water span hbefore _
  have hm : 0 < pct / 100 := by positivity
  simp only [moveStop, level, if_neg (not_le.2 hpct), if_neg (not_le.2 hstopPct)]
  cases long with
  | true =>
    have hwater : 0 < water := hentry.trans_le hbefore.1
    simp only [Bool.not_true, Bool.false_eq_true, if_false, if_true]
    set stop := entry * (1 - stopPct / 100)
    set trail := water * (1 - pct / 100)
    have htrail : trail ≤ stop ∨ trail ≤ 0 :=
      trail_long_le hwater hbefore.2 (by positivity) hm h
    by_cases hzero : stop = 0
    · have : orTrail (some stop) trail = trail := by
        simp [orTrail, truthy, Option.filter_some, hzero]
      rw [this, max_self]
      refine .inr ⟨rfl, trail, stop, rfl, rfl, ?_, hzero.le⟩
      rcases htrail with htrail | htrail
      · exact htrail.trans hzero.le
      · exact htrail
    · have : orTrail (some stop) trail = stop := by
        simp [orTrail, truthy, Option.filter_some, hzero]
      rw [this]
      rcases htrail with htrail | htrail
      · exact .inl (by rw [max_eq_left htrail])
      · rcases le_total stop trail with hle | hle
        · exact .inr ⟨rfl, trail, stop, by rw [max_eq_right hle], rfl, htrail, hle.trans htrail⟩
        · exact .inl (by rw [max_eq_left hle])
  | false =>
    simp only [Bool.not_false, Bool.false_eq_true, if_false, if_true]
    set stop := entry * (1 + stopPct / 100) with hstop
    have hne : stop ≠ 0 := by
      rw [hstop]
      positivity
    have : orTrail (some stop) (water * (1 + pct / 100)) = stop := by
      simp [orTrail, truthy, Option.filter_some, hne]
    rw [this, min_eq_left (le_trail_short hentry hbefore.1.2 hm h)]
    exact .inl rfl

theorem scan_trailing_eq {candles : List Candle} {idx cap : ℕ} {side : String} {pct : ℚ}
    (hbars : ∀ bar ∈ candles, PositivePrices bar) (hentry : 0 < entry) (hstop : 0 < stopPct)
    (htake : 0 < takePct) (hpct : 0 ≤ pct) (h : TrailsAlike stopPct takePct pct) :
    scanDynamicExit candles idx cap entry side stopPct takePct (.trailing (roundTo 4 pct)) =
      scanDynamicExit candles idx cap entry side stopPct takePct (.trailing (roundTo 6 pct)) := by
  rcases h with h | h
  · rw [h]
  have hnonneg : ∀ digits, 0 ≤ roundTo digits pct := fun digits => roundTo_nonneg hpct
  have hmoved : 0 < 1 - takePct / 100 := by
    have htighter : 0 ≤ tighter (roundTo 4 pct) (roundTo 6 pct) := by
      unfold tighter
      split_ifs
      exacts [hnonneg 6, hnonneg 4, le_min (hnonneg 4) (hnonneg 6)]
    by_contra hle
    have := mul_nonpos_of_nonpos_of_nonneg (not_lt.1 hle)
      (by positivity : 0 ≤ 1 + tighter (roundTo 4 pct) (roundTo 6 pct) / 100)
    linarith [div_pos hstop (by norm_num : (0 : ℚ) < 100)]
  have hstill : ∀ p, 0 ≤ p → (0 < p → tighter (roundTo 4 pct) (roundTo 6 pct) ≤ p) →
      Still (.trailing p) (isLong side) entry stopPct takePct := by
    intro p hp hle
    rcases hp.eq_or_lt with rfl | hp
    · exact (still_of_nonpos le_rfl).1
    · refine still_trailing hentry hstop htake hp (h.trans ?_)
      have := hle hp
      gcongr
  refine scan_eq_of_still hbars hentry htake rfl rfl rfl ?_ ?_
  · exact hstill _ (hnonneg 4) tighter_le
  · refine hstill _ (hnonneg 6) fun h6 => ?_
    rw [tighter_comm (hnonneg 4) (hnonneg 6)]
    exact tighter_le h6

theorem scan_breakEven_eq {candles : List Candle} {idx cap : ℕ} {side : String} {pct : ℚ}
    (hbars : ∀ bar ∈ candles, PositivePrices bar) (hentry : 0 < entry) (htake : 0 < takePct)
    (hpct : 0 ≤ pct)
    (h : roundTo 4 pct = roundTo 6 pct ∨ takePct ≤ tighter (roundTo 4 pct) (roundTo 6 pct)) :
    scanDynamicExit candles idx cap entry side stopPct takePct (.breakEven (roundTo 4 pct)) =
      scanDynamicExit candles idx cap entry side stopPct takePct (.breakEven (roundTo 6 pct)) := by
  rcases h with h | h
  · rw [h]
  have hnonneg : ∀ digits, 0 ≤ roundTo digits pct := fun digits => roundTo_nonneg hpct
  have hstill : ∀ p, 0 ≤ p → (0 < p → tighter (roundTo 4 pct) (roundTo 6 pct) ≤ p) →
      Still (.breakEven p) (isLong side) entry stopPct takePct := by
    intro p hp hle
    rcases hp.eq_or_lt with rfl | hp
    · exact (still_of_nonpos le_rfl).2
    · exact still_breakEven hentry htake (h.trans (hle hp))
  refine scan_eq_of_still hbars hentry htake rfl rfl rfl ?_ ?_
  · exact hstill _ (hnonneg 4) tighter_le
  · refine hstill _ (hnonneg 6) fun h6 => ?_
    rw [tighter_comm (hnonneg 4) (hnonneg 6)]
    exact tighter_le h6

end

/-! ## Bars that tell two roundings apart -/

section
variable {stop take m p : ℚ}

/-- The outcome of a scan of two bars. -/
theorem outcome_pair {σ : Type} (S : Scanner σ Candle (ℚ × Outcome)) (s : σ) (a b : Candle) :
    (exitOf [a, b] 0 1 (S.run s [a, b])).outcome =
      match S.exit? s a with
      | some e => e.2
      | none =>
          match S.exit? (S.next s a) b with
          | some e => e.2
          | none => .timeExit := by
  simp only [Scanner.run]
  cases S.exit? s a with
  | some e => rfl
  | none =>
    cases S.exit? (S.next s a) b with
    | some e => rfl
    | none => rfl

/-- A bar at 100 that reaches up to `pct` percent. -/
def reachingBar (pct : ℚ) : Candle := ⟨0, 100, 100 + pct, 100, 100⟩

/-- A bar that stays at 100. -/
def restingBar : Candle := ⟨1, 100, 100, 100, 100⟩

theorem early_take (hstop : 0 < stop) (hm : 0 < m) :
    (scanDynamicExit [reachingBar m, restingBar] 0 1 100 "long" stop take
      (.fixed (some m))).outcome = .take := by
  refine (outcome_pair _ _ _ _).trans ?_
  have hlong : isLong "long" = true := rfl
  have hfar : ¬ (100 : ℚ) ≤ 100 * (1 - stop / 100) := by linarith
  have htake : 100 * (1 + m / 100) ≤ 100 + m := by linarith
  simp [dynamicScanner, hlong, level, scanTakePct, not_le.2 hstop, not_le.2 hm, stopTouched,
    takeTouched, reachingBar, Option.filter_some, hfar, htake]

theorem early_rest (hstop : 0 < stop) (hm : 0 < m) (hp : p ≤ 0 ∨ m < p) :
    (scanDynamicExit [reachingBar m, restingBar] 0 1 100 "long" stop take
      (.fixed (some p))).outcome = .timeExit := by
  refine (outcome_pair _ _ _ _).trans ?_
  have hlong : isLong "long" = true := rfl
  have hfar : ¬ (100 : ℚ) ≤ 100 * (1 - stop / 100) := by linarith
  rcases hp with hp | hp
  · simp [dynamicScanner, hlong, level, scanTakePct, not_le.2 hstop, hp, stopTouched, moveStop,
      reachingBar, restingBar, Option.filter_some, hfar]
  · have htake : ¬ 100 * (1 + p / 100) ≤ 100 + m := by linarith
    have hrest : ¬ 100 * (1 + p / 100) ≤ 100 := by linarith
    simp [dynamicScanner, hlong, level, scanTakePct, not_le.2 hstop, not_le.2 (hm.trans hp),
      stopTouched, takeTouched, moveStop, reachingBar, restingBar, Option.filter_some, hfar, htake,
      hrest]

theorem breakEven_stop (hstop : 0 < stop) (hm : 0 < m) (hlt : m < take) :
    (scanDynamicExit [reachingBar m, restingBar] 0 1 100 "long" stop take
      (.breakEven m)).outcome = .stop := by
  refine (outcome_pair _ _ _ _).trans ?_
  have hlong : isLong "long" = true := rfl
  have hfar : ¬ (100 : ℚ) ≤ 100 * (1 - stop / 100) := by linarith
  have htake : ¬ 100 * (1 + take / 100) ≤ 100 + m := by linarith
  have htrigger : 100 * (1 + m / 100) ≤ 100 + m := by linarith
  simp [dynamicScanner, hlong, level, scanTakePct, not_le.2 hstop, not_le.2 hm,
    not_le.2 (hm.trans hlt), stopTouched, takeTouched, moveStop, reachingBar, restingBar,
    Option.filter_some, hfar, htake, htrigger, stopOutcome]

theorem breakEven_rest (hstop : 0 < stop) (hm : 0 < m) (hlt : m < take) (hp : p ≤ 0 ∨ m < p) :
    (scanDynamicExit [reachingBar m, restingBar] 0 1 100 "long" stop take
      (.breakEven p)).outcome = .timeExit := by
  refine (outcome_pair _ _ _ _).trans ?_
  have hlong : isLong "long" = true := rfl
  have hfar : ¬ (100 : ℚ) ≤ 100 * (1 - stop / 100) := by linarith
  have htake : ¬ 100 * (1 + take / 100) ≤ 100 + m := by linarith
  have hrest : ¬ 100 * (1 + take / 100) ≤ 100 := by linarith
  rcases hp with hp | hp
  · simp [dynamicScanner, hlong, level, scanTakePct, not_le.2 hstop, hp, not_le.2 (hm.trans hlt),
      stopTouched, takeTouched, moveStop, reachingBar, restingBar, Option.filter_some, hfar, htake,
      hrest]
  · have htrigger : ¬ 100 * (1 + p / 100) ≤ 100 + m := by linarith
    have hpct : ¬ p / 100 ≤ 0 := by linarith
    simp [dynamicScanner, hlong, level, scanTakePct, not_le.2 hstop, not_le.2 (hm.trans hp),
      not_le.2 (hm.trans hlt), stopTouched, takeTouched, moveStop, reachingBar, restingBar,
      Option.filter_some, hfar, htake, hrest, htrigger, hpct]

/-- A bar that falls from 100 to `low`. -/
def fallingBar (low : ℚ) : Candle := ⟨0, 100, 100, low, low⟩

/-- A bar that rises from `low` by `pct` percent and falls back. -/
def reboundBar (low pct : ℚ) : Candle := ⟨1, low, low * (1 + pct / 100), low, low⟩

variable {low : ℚ}

theorem trailing_stop (hstop : 0 < stop) (htake : 0 < take) (hm : 0 < m) (hlow : low ≤ 100)
    (hbefore : 100 * (1 - take / 100) < low) (hlead : low * (1 + m / 100) < 100 * (1 + stop / 100)) :
    (scanDynamicExit [fallingBar low, reboundBar low m] 0 1 100 "short" stop take
      (.trailing m)).outcome = .trail := by
  refine (outcome_pair _ _ _ _).trans ?_
  have hlong : isLong "short" = false := by decide
  have hfar : ¬ 100 * (1 + stop / 100) ≤ (100 : ℚ) := by linarith
  have hne : 100 * (1 + stop / 100) ≠ 0 := by positivity
  have hinit : orTrail (some (100 * (1 + stop / 100))) (low * (1 + m / 100)) =
      100 * (1 + stop / 100) := by
    rw [orTrail, truthy, Option.filter_some, if_pos (by simpa using hne), Option.getD_some]
  have htrail : min (100 * (1 + stop / 100)) (low * (1 + m / 100)) = low * (1 + m / 100) :=
    min_eq_right hlead.le
  simp [dynamicScanner, hlong, level, scanTakePct, not_le.2 hstop, not_le.2 hm, not_le.2 htake,
    stopTouched, takeTouched, moveStop, fallingBar, reboundBar, Option.filter_some, hfar,
    not_le.2 hbefore, min_eq_right hlow, hinit, htrail, stopOutcome]

theorem trailing_rest (hstop : 0 < stop) (htake : 0 < take) (hm : 0 < m) (hpos : 0 < low)
    (hlow : low ≤ 100) (hbefore : 100 * (1 - take / 100) < low)
    (hlead : low * (1 + m / 100) < 100 * (1 + stop / 100)) (hp : p ≤ 0 ∨ m < p) :
    (scanDynamicExit [fallingBar low, reboundBar low m] 0 1 100 "short" stop take
      (.trailing p)).outcome = .timeExit := by
  refine (outcome_pair _ _ _ _).trans ?_
  have hlong : isLong "short" = false := by decide
  have hfar : ¬ 100 * (1 + stop / 100) ≤ (100 : ℚ) := by linarith
  rcases hp with hp | hp
  · simp [dynamicScanner, hlong, level, scanTakePct, not_le.2 hstop, hp, not_le.2 htake, stopTouched,
      takeTouched, moveStop, fallingBar, reboundBar, Option.filter_some, hfar, not_le.2 hbefore,
      not_le.2 hlead]
  · have hne : 100 * (1 + stop / 100) ≠ 0 := by positivity
    have hinit : orTrail (some (100 * (1 + stop / 100))) (low * (1 + p / 100)) =
        100 * (1 + stop / 100) := by
      rw [orTrail, truthy, Option.filter_some, if_pos (by simpa using hne), Option.getD_some]
    have hwide : low * (1 + m / 100) < low * (1 + p / 100) := by gcongr
    have htrail : ¬ min (100 * (1 + stop / 100)) (low * (1 + p / 100)) ≤ low * (1 + m / 100) :=
      not_le.2 (lt_min hlead hwide)
    simp [dynamicScanner, hlong, level, scanTakePct, not_le.2 hstop, not_le.2 (hm.trans hp),
      not_le.2 htake, stopTouched, takeTouched, moveStop, fallingBar, reboundBar,
      Option.filter_some, hfar, not_le.2 hbefore, min_eq_right hlow, hinit, htrail]

/-- Where even the tighter trail can pass the initial stop, a price before the take-profit takes it
there. -/
theorem exists_low (hstop : 0 < stop) (htake : 0 < take) (hm : 0 < m)
    (h : (1 - take / 100) * (1 + m / 100) < 1 + stop / 100) :
    ∃ low, 0 < low ∧ low ≤ 100 ∧ 100 * (1 - take / 100) < low ∧
      low * (1 + m / 100) < 100 * (1 + stop / 100) := by
  have hscale : 0 < 1 + m / 100 := by positivity
  have hbound : max 0 (100 * (1 - take / 100)) <
      min 100 (100 * (1 + stop / 100) / (1 + m / 100)) := by
    refine max_lt (lt_min (by norm_num) (by positivity)) (lt_min (by linarith) ?_)
    rw [lt_div_iff₀ hscale]
    linarith
  obtain ⟨low, hlo, hhi⟩ := exists_between hbound
  obtain ⟨hpos, hbefore⟩ := max_lt_iff.1 hlo
  obtain ⟨h100, hlead⟩ := lt_min_iff.1 hhi
  exact ⟨low, hpos, h100.le, hbefore, (lt_div_iff₀ hscale).1 hlead⟩

end

/-! ## Trades with one exit -/

section
variable {sha256 : String → String} {candles : List Candle} {params : Params} {costs : Costs}
  {requireCompleteHorizon : Bool} {sig : Signal} {name : String} {mode : ExitMode}

/-- The trade of a window that the scan `exit` leaves. -/
def tradeAt (sha256 : String → String) (candles : List Candle) (holdBars : ℤ) (costs : Costs)
    (requireCompleteHorizon : Bool) (exit : ℕ → ℚ → Exit) (sig : Signal) : Option Trade :=
  match holdingWindow candles sig.idx holdBars with
  | none => none
  | some (cap, entry) =>
      if requireCompleteHorizon ∧ cutOff candles sig.idx holdBars (exit cap entry).outcome then none
      else some (finalTrade sha256 candles sig.idx sig.side entry (exit cap entry) sig costs)

theorem tradeOf_eq_tradeAt (hsingle : partialTakes params = none) :
    tradeOf sha256 candles params costs requireCompleteHorizon sig =
      .ok (tradeAt sha256 candles (holdBarsOf params) costs requireCompleteHorizon
        (decidedExit candles params sig) sig) := by
  rw [tradeOf_eq, tradeAt]
  cases holdingWindow candles sig.idx (holdBarsOf params) with
  | none => rfl
  | some w =>
    simp only [hsingle]
    split_ifs <;> rfl

/-- The bars to hold under a mode of the grid. -/
def ExitMode.hold (mode : ExitMode) (params : Params) : ℤ :=
  mode.holdBars.getD (params.holdBars.getD 5)

/-- The scan of a signal under a mode of the grid. -/
def modeExit (candles : List Candle) (params : Params) (mode : ExitMode) (sig : Signal) (cap : ℕ)
    (entry : ℚ) : Exit :=
  scan candles sig.idx cap entry sig.side (params.stopPct.getD 0) (params.takePct.getD 0) mode

theorem exitModeTrade_eq_tradeAt (hsingle : ∀ tp1Pct tp2Pct, mode.rule ≠ .partialTake tp1Pct tp2Pct) :
    exitModeTrade sha256 candles params mode costs requireCompleteHorizon sig =
      .ok ((tradeAt sha256 candles (mode.hold params) costs requireCompleteHorizon
        (modeExit candles params mode sig) sig).map .single) := by
  rw [exitModeTrade, tradeAt, ExitMode.hold]
  cases holdingWindow candles sig.idx (mode.holdBars.getD (params.holdBars.getD 5)) with
  | none => rfl
  | some w =>
    obtain ⟨cap, entry⟩ := w
    have hreturn : ∀ (cut : Prop) [Decidable cut] (t : Trade),
        (if cut then .ok none else (Except.ok t : Except String Trade).map fun t =>
          some (ExitModeTrade.single t)) = .ok ((if cut then none else some t).map .single) := by
      intro cut _ t
      split_ifs <;> rfl
    cases hrule : mode.rule with
    | partialTake tp1Pct tp2Pct => exact absurd hrule (hsingle tp1Pct tp2Pct)
    | _ =>
      simp only [finalizeTrade_eq, modeExit, hreturn]
      congr

/-- Where both scans decide the same exits the trades agree. -/
theorem exitsAgree_of_exit_eq {signals : List Signal}
    (hsingle : ∀ tp1Pct tp2Pct, mode.rule ≠ .partialTake tp1Pct tp2Pct)
    (hsingle' : partialTakes (withExitMode params name) = none)
    (hhold : mode.hold params = holdBarsOf (withExitMode params name))
    (hexit : ∀ sig ∈ signals, ∀ cap entry, 0 < entry →
      modeExit candles params mode sig cap entry =
        decidedExit candles (withExitMode params name) sig cap entry) :
    ExitsAgree sha256 candles signals params name mode costs requireCompleteHorizon := by
  refine ⟨_, _, tradesOf_eq_ok fun sig _ => exitModeTrade_eq_tradeAt hsingle,
    tradesOf_eq_ok fun sig _ => tradeOf_eq_tradeAt hsingle', ?_⟩
  rw [List.map_filterMap, List.map_filterMap]
  refine List.filterMap_congr fun sig hsig => ?_
  rw [hhold, tradeAt, tradeAt]
  cases hw : holdingWindow candles sig.idx (holdBarsOf (withExitMode params name)) with
  | none => rfl
  | some w =>
    obtain ⟨cap, entry⟩ := w
    simp only [hexit sig hsig cap entry (holdingWindow_eq_some hw).2.2.2]
    split_ifs <;> rfl

theorem holdingWindow_pair {a b : Candle} {hold : ℤ} (hentry : 0 < a.openPrice) (hhold : 0 < hold) :
    holdingWindow [a, b] 0 hold = some (1, a.openPrice) := by
  have hopen : (barAt [a, b] 0).openPrice = a.openPrice := rfl
  have hcap : min (((0 : ℕ) : ℤ) + hold) (([a, b].length : ℤ) - 1) = 1 := by
    simp only [List.length_cons, List.length_nil]
    omega
  simp only [holdingWindow, hopen, hcap]
  rw [if_neg (by simp), if_neg (not_le.2 hentry)]
  rfl

/-- Trades that agree on two bars have the same outcome. -/
theorem outcome_eq_of_exitsAgree {a b : Candle} {side : String}
    (hsingle : ∀ tp1Pct tp2Pct, mode.rule ≠ .partialTake tp1Pct tp2Pct)
    (hsingle' : partialTakes (withExitMode params name) = none)
    (hhold : mode.hold params = holdBarsOf (withExitMode params name))
    (hpos : 0 < mode.hold params) (hentry : 0 < a.openPrice)
    (h : ExitsAgree sha256 [a, b] [{ idx := 0, side }] params name mode costs false) :
    (modeExit [a, b] params mode { idx := 0, side } 1 a.openPrice).outcome =
      (decidedExit [a, b] (withExitMode params name) { idx := 0, side } 1 a.openPrice).outcome := by
  obtain ⟨ts, us, hts, hus, hread⟩ := h
  have hts' := hts.symm.trans (tradesOf_eq_ok fun sig _ => exitModeTrade_eq_tradeAt hsingle)
  have hus' := hus.symm.trans (tradesOf_eq_ok fun sig _ => tradeOf_eq_tradeAt hsingle')
  have hw : holdingWindow [a, b] 0 (mode.hold params) = some (1, a.openPrice) :=
    holdingWindow_pair hentry hpos
  rw [Except.ok.inj hts', Except.ok.inj hus', ← hhold] at hread
  simp only [List.filterMap_cons, List.filterMap_nil, tradeAt, hw, Bool.false_eq_true, false_and,
    if_false, Option.map_some, List.map_cons, List.map_nil, List.cons.injEq, and_true] at hread
  exact congrArg TradeReading.outcome hread

end

/-! ## The modes of the grid -/

/-- On candles with positive prices and on signals of both sides the two simulators agree under a
mode. -/
def Interchangeable (sha256 : String → String) (params : Params) (name : String) (mode : ExitMode)
    (costs : Costs) : Prop :=
  ∀ candles signals requireCompleteHorizon, (∀ bar ∈ candles, PositivePrices bar) →
    (∀ sig ∈ signals, sig.side = "long" ∨ sig.side = "short") →
    ExitsAgree sha256 candles signals params name mode costs requireCompleteHorizon

section
variable {sha256 : String → String} {params : Params} {costs : Costs} {name side : String}
  {mode : ExitMode} {rule : ExitRule} {stop take : ℚ} {hold : ℤ}

/-- The mode of the production path that a name selects. -/
structure Selects (params : Params) (name : String) (rule : ExitRule) (hold : ℤ) : Prop where
  single : partialTakes (withExitMode params name) = none
  hold_eq : holdBarsOf (withExitMode params name) = hold
  exit_eq : ∀ candles sig cap entry, decidedExit candles (withExitMode params name) sig cap entry =
    scanDynamicExit candles sig.idx cap entry sig.side (params.stopPct.getD 0)
      (params.takePct.getD 0) rule

theorem exitModeOf_withExitMode (params : Params) (hne : name ≠ "")
    (hnormal : normalizeMode name = name) : exitModeOf (withExitMode params name) = name := by
  have hmode : (withExitMode params name).exitMode = some name := rfl
  rw [exitModeOf, hmode]
  simp only [Option.getD_some, if_neg hne, hnormal]

theorem selects_of_dynamic (hname : exitModeOf (withExitMode params name) = name)
    (hdynamic : name ≠ "" ∧ name ≠ "baseline")
    (hmode : dynamicModeParams params name = ⟨rule, hold⟩)
    (hsingle : ∀ tp1Pct tp2Pct, rule ≠ .partialTake tp1Pct tp2Pct) :
    Selects params name rule hold := by
  have his : IsDynamic (withExitMode params name) := by rwa [IsDynamic, hname]
  have hdynamicMode : dynamicMode (withExitMode params name) = ⟨rule, hold⟩ := by
    rw [dynamicMode, hname]
    exact hmode
  have hparts : partialTakes (withExitMode params name) = none := by
    rw [partialTakes, if_pos his, hdynamicMode]
    cases rule with
    | partialTake tp1Pct tp2Pct => exact absurd rfl (hsingle tp1Pct tp2Pct)
    | _ => rfl
  refine ⟨hparts, ?_, fun candles sig cap entry => ?_⟩
  · rw [holdBarsOf, if_pos his, hdynamicMode]
  · rw [decidedExit, hparts]
    simp only [if_pos his, hdynamicMode]
    rfl

/-- The modes of a name agree when their scans do. -/
theorem interchangeable_of_scan_eq (hselects : Selects params name rule hold)
    (hsingle : ∀ tp1Pct tp2Pct, mode.rule ≠ .partialTake tp1Pct tp2Pct)
    (hhold : mode.hold params = hold)
    (h : ∀ candles idx cap entry side, (∀ bar ∈ candles, PositivePrices bar) → 0 < entry →
      scanDynamicExit candles idx cap entry side (params.stopPct.getD 0) (params.takePct.getD 0)
          mode.rule =
        scanDynamicExit candles idx cap entry side (params.stopPct.getD 0) (params.takePct.getD 0)
          rule) :
    Interchangeable sha256 params name mode costs := by
  intro candles signals requireCompleteHorizon hbars _
  refine exitsAgree_of_exit_eq hsingle hselects.single (hhold.trans hselects.hold_eq.symm)
    fun sig _ cap entry hentry => ?_
  rw [hselects.exit_eq]
  exact h candles sig.idx cap entry sig.side hbars hentry

/-- Two bars on which the scans leave differently tell the modes of a name apart. -/
theorem outcome_eq_of_interchangeable {a b : Candle} (hselects : Selects params name rule hold)
    (hsingle : ∀ tp1Pct tp2Pct, mode.rule ≠ .partialTake tp1Pct tp2Pct)
    (hhold : mode.hold params = hold) (hpos : 0 < hold) (ha : PositivePrices a)
    (hb : PositivePrices b) (hside : side = "long" ∨ side = "short")
    (h : Interchangeable sha256 params name mode costs) :
    (scanDynamicExit [a, b] 0 1 a.openPrice side (params.stopPct.getD 0) (params.takePct.getD 0)
        mode.rule).outcome =
      (scanDynamicExit [a, b] 0 1 a.openPrice side (params.stopPct.getD 0) (params.takePct.getD 0)
        rule).outcome := by
  have hagree := h [a, b] [{ idx := 0, side }] false (by simp [ha, hb]) (by simpa using hside)
  have := outcome_eq_of_exitsAgree hsingle hselects.single (hhold.trans hselects.hold_eq.symm)
    (by rw [hhold]; exact hpos) ha.open_pos hagree
  rwa [hselects.exit_eq] at this

theorem PositiveParams.truthyOr_stop (h : PositiveParams params stop take hold) :
    truthyOr params.stopPct 1 = stop := by
  rw [truthyOr, h.stop_eq, Option.getD_some, if_neg h.stop_pos.ne']

theorem PositiveParams.truthyOr_take (h : PositiveParams params stop take hold) (x : ℚ) :
    truthyOr params.takePct x = take := by
  rw [truthyOr, h.take_eq, Option.getD_some, if_neg h.take_pos.ne']

theorem PositiveParams.hold_or (h : PositiveParams params stop take hold) :
    (if params.holdBars.getD 0 = 0 then 5 else params.holdBars.getD 0) = hold := by
  rw [h.hold_eq, Option.getD_some, if_neg h.hold_pos.ne']

theorem exitModes_eq (h : PositiveParams params stop take hold) : exitModes params =
    [("baseline", { rule := .fixed none }),
      ("early_tp", { rule := .fixed (some (roundTo 4 (take * (1 / 2)))) }),
      ("trailing", { rule := .trailing (roundTo 4 stop) }),
      ("trailing_tight", { rule := .trailing (roundTo 4 (stop * (1 / 2))) }),
      ("break_even", { rule := .breakEven (roundTo 4 stop) }),
      ("time_decay", { rule := .timeDecay }),
      ("partial_tp", { rule := .partialTake (roundTo 4 (take * (1 / 2))) (roundTo 4 take) }),
      ("hold_long", { rule := .fixed none, holdBars := some (hold * 2) })] := by
  simp only [exitModes, h.truthyOr_stop, h.truthyOr_take, h.hold_or]

theorem dynamicModeParams_eq (h : PositiveParams params stop take hold) (name : String) :
    dynamicModeParams params name =
      if name = "early_tp" then ⟨.fixed (some (roundTo 6 (take * (1 / 2)))), hold⟩
      else if name = "trailing" then ⟨.trailing (roundTo 6 stop), hold⟩
      else if name = "trailing_tight" then ⟨.trailing (roundTo 6 (stop * (1 / 2))), hold⟩
      else if name = "break_even" then ⟨.breakEven (roundTo 6 stop), hold⟩
      else if name = "time_decay" then ⟨.timeDecay, hold⟩
      else if name = "partial_tp" ∨ name = "partial_be" then
        ⟨.partialTake (roundTo 6 (take * (1 / 2))) (roundTo 6 take), hold⟩
      else if name = "hold_long" then ⟨.fixed none, max 1 (hold * 2)⟩
      else ⟨.fixed none, hold⟩ := by
  simp only [dynamicModeParams, h.truthyOr_stop, h.truthyOr_take, h.hold_or]

theorem positivePrices_reachingBar {pct : ℚ} (h : 0 < pct) : PositivePrices (reachingBar pct) := by
  constructor <;> simp only [reachingBar] <;> linarith

theorem positivePrices_restingBar : PositivePrices restingBar := by
  constructor <;> norm_num [restingBar]

theorem positivePrices_fallingBar {low : ℚ} (h : 0 < low) : PositivePrices (fallingBar low) :=
  ⟨by norm_num [fallingBar], by norm_num [fallingBar], h, h⟩

theorem positivePrices_reboundBar {low pct : ℚ} (h : 0 < low) (hpct : 0 < pct) :
    PositivePrices (reboundBar low pct) :=
  ⟨h, by simp only [reboundBar]; positivity, h, h⟩

/-- A mode with the same rule on both sides. -/
theorem interchangeable_of_same_rule (hselects : Selects params name rule hold)
    (hsingle : ∀ tp1Pct tp2Pct, rule ≠ .partialTake tp1Pct tp2Pct) (hhold : mode.hold params = hold)
    (hrule : mode.rule = rule) : Interchangeable sha256 params name mode costs :=
  interchangeable_of_scan_eq hselects (hrule ▸ hsingle) hhold fun _ _ _ _ _ _ _ => by rw [hrule]

theorem baseline_interchangeable :
    Interchangeable sha256 params "baseline" { rule := .fixed none } costs := by
  have hname : exitModeOf (withExitMode params "baseline") = "baseline" :=
    exitModeOf_withExitMode params (by decide) (by decide +kernel)
  have hstatic : ¬ IsDynamic (withExitMode params "baseline") := by
    rw [IsDynamic, hname]
    exact fun hdynamic => hdynamic.2 rfl
  have hparts : partialTakes (withExitMode params "baseline") = none := by
    rw [partialTakes, if_neg hstatic]
  intro candles signals requireCompleteHorizon hbars _
  refine exitsAgree_of_exit_eq (fun _ _ hrule => by cases hrule) hparts ?_
    fun sig _ cap entry hentry => ?_
  · rw [holdBarsOf, if_neg hstatic]
    rfl
  · rw [decidedExit, hparts]
    simp only [if_neg hstatic]
    exact baselineExit_eq_scan hbars hentry

theorem early_tp_interchangeable_iff (h : PositiveParams params stop take hold) {p q : ℚ}
    (hp : 0 ≤ p) (hq : 0 ≤ q) (hselects : Selects params name (.fixed (some q)) hold) :
    Interchangeable sha256 params name { rule := .fixed (some p) } costs ↔ p = q := by
  have hhold : ExitMode.hold { rule := .fixed (some p) } params = hold := by
    simp only [ExitMode.hold, h.hold_eq, Option.getD_none, Option.getD_some]
  constructor
  · intro hagree
    by_contra hne
    have houtcome : ∀ m, 0 < m → (scanDynamicExit [reachingBar m, restingBar] 0 1 100 "long" stop
        take (.fixed (some p))).outcome = (scanDynamicExit [reachingBar m, restingBar] 0 1 100 "long"
          stop take (.fixed (some q))).outcome := by
      intro m hm
      have := outcome_eq_of_interchangeable hselects (fun _ _ hrule => by cases hrule) hhold
        h.hold_pos (positivePrices_reachingBar hm) positivePrices_restingBar (.inl rfl) hagree
      simpa only [h.stop_eq, h.take_eq, Option.getD_some, reachingBar] using this
    rcases tighter_cases hp hq hne with ⟨hm, -, hwide⟩ | ⟨hm, -, hwide⟩
    · have := houtcome p hm
      rw [early_take h.stop_pos hm, early_rest h.stop_pos hm hwide] at this
      cases this
    · have := houtcome q hm
      rw [early_take h.stop_pos hm, early_rest h.stop_pos hm hwide] at this
      cases this
  · rintro rfl
    exact interchangeable_of_same_rule hselects (fun _ _ hrule => by cases hrule) hhold rfl

theorem break_even_interchangeable_iff (h : PositiveParams params stop take hold) {pct : ℚ}
    (hpct : 0 ≤ pct) (hselects : Selects params name (.breakEven (roundTo 6 pct)) hold) :
    Interchangeable sha256 params name { rule := .breakEven (roundTo 4 pct) } costs ↔
      roundTo 4 pct = roundTo 6 pct ∨ take ≤ tighter (roundTo 4 pct) (roundTo 6 pct) := by
  have hhold : ExitMode.hold { rule := .breakEven (roundTo 4 pct) } params = hold := by
    simp only [ExitMode.hold, h.hold_eq, Option.getD_none, Option.getD_some]
  constructor
  · intro hagree
    by_contra hne
    push Not at hne
    obtain ⟨hne, hlt⟩ := hne
    have houtcome : ∀ m, 0 < m → (scanDynamicExit [reachingBar m, restingBar] 0 1 100 "long" stop
        take (.breakEven (roundTo 4 pct))).outcome = (scanDynamicExit [reachingBar m, restingBar] 0 1
          100 "long" stop take (.breakEven (roundTo 6 pct))).outcome := by
      intro m hm
      have := outcome_eq_of_interchangeable hselects (fun _ _ hrule => by cases hrule) hhold
        h.hold_pos (positivePrices_reachingBar hm) positivePrices_restingBar (.inl rfl) hagree
      simpa only [h.stop_eq, h.take_eq, Option.getD_some, reachingBar] using this
    rcases tighter_cases (roundTo_nonneg hpct) (roundTo_nonneg hpct) hne with
      ⟨hm, htighter, hwide⟩ | ⟨hm, htighter, hwide⟩
    · have := houtcome _ hm
      rw [htighter] at hlt
      rw [breakEven_stop h.stop_pos hm hlt, breakEven_rest h.stop_pos hm hlt hwide] at this
      cases this
    · have := houtcome _ hm
      rw [htighter] at hlt
      rw [breakEven_stop h.stop_pos hm hlt, breakEven_rest h.stop_pos hm hlt hwide] at this
      cases this
  · intro halike
    refine interchangeable_of_scan_eq hselects (fun _ _ hrule => by cases hrule) hhold
      fun candles idx cap entry side hbars hentry => ?_
    simp only [h.stop_eq, h.take_eq, Option.getD_some]
    exact scan_breakEven_eq hbars hentry h.take_pos hpct halike

theorem trailing_interchangeable_iff (h : PositiveParams params stop take hold) {pct : ℚ}
    (hpct : 0 ≤ pct) (hselects : Selects params name (.trailing (roundTo 6 pct)) hold) :
    Interchangeable sha256 params name { rule := .trailing (roundTo 4 pct) } costs ↔
      TrailsAlike stop take pct := by
  have hhold : ExitMode.hold { rule := .trailing (roundTo 4 pct) } params = hold := by
    simp only [ExitMode.hold, h.hold_eq, Option.getD_none, Option.getD_some]
  constructor
  · intro hagree
    by_contra hne
    rw [TrailsAlike, not_or, not_le] at hne
    obtain ⟨hne, hlead⟩ := hne
    have houtcome : ∀ low m, 0 < low → 0 < m → (scanDynamicExit [fallingBar low, reboundBar low m] 0
        1 100 "short" stop take (.trailing (roundTo 4 pct))).outcome =
          (scanDynamicExit [fallingBar low, reboundBar low m] 0 1 100 "short" stop take
            (.trailing (roundTo 6 pct))).outcome := by
      intro low m hlow hm
      have := outcome_eq_of_interchangeable hselects (fun _ _ hrule => by cases hrule) hhold
        h.hold_pos (positivePrices_fallingBar hlow) (positivePrices_reboundBar hlow hm) (.inr rfl)
        hagree
      simpa only [h.stop_eq, h.take_eq, Option.getD_some, fallingBar] using this
    rcases tighter_cases (roundTo_nonneg hpct) (roundTo_nonneg hpct) hne with
      ⟨hm, htighter, hwide⟩ | ⟨hm, htighter, hwide⟩
    · rw [htighter] at hlead
      obtain ⟨low, hpos, hlow, hbefore, hpass⟩ := exists_low h.stop_pos h.take_pos hm hlead
      have := houtcome low _ hpos hm
      rw [trailing_stop h.stop_pos h.take_pos hm hlow hbefore hpass,
        trailing_rest h.stop_pos h.take_pos hm hpos hlow hbefore hpass hwide] at this
      cases this
    · rw [htighter] at hlead
      obtain ⟨low, hpos, hlow, hbefore, hpass⟩ := exists_low h.stop_pos h.take_pos hm hlead
      have := houtcome low _ hpos hm
      rw [trailing_stop h.stop_pos h.take_pos hm hlow hbefore hpass,
        trailing_rest h.stop_pos h.take_pos hm hpos hlow hbefore hpass hwide] at this
      cases this
  · intro halike
    refine interchangeable_of_scan_eq hselects (fun _ _ hrule => by cases hrule) hhold
      fun candles idx cap entry side hbars hentry => ?_
    simp only [h.stop_eq, h.take_eq, Option.getD_some]
    exact scan_trailing_eq hbars hentry h.stop_pos h.take_pos hpct halike

end

/-! ## Partial exits -/

section
variable {sha256 : String → String} {params : Params} {costs : Costs} {name : String}
  {stop take tp1Pct tp2Pct costPct : ℚ} {hold : ℤ}

/-- A high that lies far behind both take-profits, on two bars whose lows keep the stop away. -/
def highBars (take : ℚ) : List Candle :=
  [⟨0, 100, 110 + take, 100, 100⟩, ⟨1, 101, 110 + take, 101, 101⟩]

theorem positivePrices_highBars (htake : 0 < take) : ∀ bar ∈ highBars take, PositivePrices bar := by
  simp only [highBars, List.forall_mem_cons, List.not_mem_nil, false_imp_iff, implies_true, and_true]
  constructor <;> constructor <;> norm_num <;> linarith

/-- The whole position, or its second half, leaves at the second bar. -/
theorem exit_highBars (take tp1Pct tp2Pct : ℚ) (hstop : 0 < stop) :
    let exit := exitOf (highBars take) 0 1 ((partialScan true 100 tp1Pct tp2Pct).run
      (partialStart 100 stop true) (highBars take))
    exit.idx = 1 ∧ (exit.price = 101 ∨ level 100 tp2Pct true = some exit.price) := by
  set S := partialScan true 100 tp1Pct tp2Pct with hS
  have hfar : ¬ (100 : ℚ) ≤ 100 * (1 - stop / 100) := by linarith
  have hfar' : ¬ (101 : ℚ) ≤ 100 * (1 - stop / 100) := by linarith
  have hfirst : S.exit? (partialStart 100 stop true) ⟨0, 100, 110 + take, 100, 100⟩ = none := by
    simp [hS, partialScan, partialScanner, partialStart, level, not_le.2 hstop, stopTouched,
      Option.filter_some, hfar]
  -- the first bar may sell the first half, and then the stop is the entry
  have hnext : S.next (partialStart 100 stop true) ⟨0, 100, 110 + take, 100, 100⟩ =
      ⟨true, some 100⟩ ∨ S.next (partialStart 100 stop true) ⟨0, 100, 110 + take, 100, 100⟩ =
        partialStart 100 stop true := by
    simp only [hS, partialScan, partialScanner]
    split_ifs
    · exact .inl rfl
    · exact .inr rfl
  simp only [highBars, Scanner.run, hfirst]
  rcases hnext with hnext | hnext
  · have hsecond : S.exit? ⟨true, some 100⟩ ⟨1, 101, 110 + take, 101, 101⟩ =
        ((level 100 tp2Pct true).filter (takeTouched true ⟨1, 101, 110 + take, 101, 101⟩)).map
          fun price => (price, .take) := by
      have htouch : stopTouched true ⟨1, 101, 110 + take, 101, 101⟩ 100 = false := by
        simp only [stopTouched, if_true]
        norm_num
      simp only [hS, partialScan, partialScanner]
      cases (level 100 tp2Pct true).filter (takeTouched true ⟨1, 101, 110 + take, 101, 101⟩) with
      | some price => rfl
      | none => simp [Option.filter_some, htouch]
    rw [hnext, hsecond]
    cases hfilter : (level 100 tp2Pct true).filter
        (takeTouched true ⟨1, 101, 110 + take, 101, 101⟩) with
    | some price => exact ⟨rfl, .inr (Option.filter_eq_some_iff.1 hfilter).1⟩
    | none => exact ⟨rfl, .inl rfl⟩
  · have hsecond : S.exit? (partialStart 100 stop true) ⟨1, 101, 110 + take, 101, 101⟩ = none := by
      simp [hS, partialScan, partialScanner, partialStart, level, not_le.2 hstop, stopTouched,
        Option.filter_some, hfar']
    rw [hnext, hsecond]
    exact ⟨rfl, .inl rfl⟩

theorem le_hi_see {p : PathExtremes} {m : ℚ} {o : ℕ} (high low : ℚ) (off : ℕ)
    (h : p.hi = some (m, o)) :
    ∃ m' o', (p.see high low off).hi = some (m', o') ∧ m ≤ m' := by
  simp only [PathExtremes.see, h]
  split_ifs with hlt
  · exact ⟨high, off, rfl, hlt.le⟩
  · exact ⟨m, o, rfl, le_rfl⟩

/-- The path of a trade that leaves at the second bar has seen the high of the first. -/
theorem le_mfePct_highBars {exit : Exit} (h : exit.idx = 1) :
    10 + take ≤ (tradePath (highBars take) 0 exit 100 "long").mfePct := by
  have hsee : ∀ high low off, ∃ m o,
      (((({} : PathExtremes).see (110 + take) 100 0).see high low off).hi).getD (100, 0) = (m, o) ∧
        110 + take ≤ m := by
    intro high low off
    obtain ⟨m, o, hm, hle⟩ := le_hi_see (p := ({} : PathExtremes).see (110 + take) 100 0) high low off
      rfl
    exact ⟨m, o, by rw [hm, Option.getD_some], hle⟩
  simp only [tradePath, h, if_true]
  refine le_max_of_le_right ?_
  split_ifs
  · obtain ⟨m, o, hm, hle⟩ := hsee (110 + take) 101 1
    have hbars : seeBars {} (barsBetween (highBars take) 0 1) =
        (({} : PathExtremes).see (110 + take) 100 0).see (110 + take) 101 1 := rfl
    rw [hbars, hm]
    linarith
  · obtain ⟨m, o, hm, hle⟩ := hsee (knownPrices 0 1 100 exit.price).1
      (knownPrices 0 1 100 exit.price).2 1
    have hbars : seeBars {} (((highBars take).drop 0).take (1 - 0)) =
        ({} : PathExtremes).see (110 + take) 100 0 := rfl
    rw [hbars, hm]
    linarith

theorem mfePct_of_mkPartial {candles : List Candle} {idx exitIdx : ℕ} {side : String}
    {entry p1 p2 frac1 : ℚ} {outcome : Outcome} {t : PartialRecord}
    (h : mkPartial candles idx exitIdx side entry p1 p2 frac1 costPct outcome = .ok t) :
    t.mfePct = roundTo 4 (max (max 0 (returnPct side entry p2)) (returnPct side entry p1)) := by
  obtain ⟨reconciliation, -, h⟩ := bind_eq_ok.1 h
  by_cases hbad : 1 / 10 ^ 9 < |reconciliation.netReturnPct.getD 0 -
      ((if frac1 = 0 then returnPct side entry p2
        else frac1 * returnPct side entry p1 + (1 - frac1) * returnPct side entry p2) - costPct * 100)|
  · rw [if_pos hbad] at h
    cases h
  · rw [if_neg hbad] at h
    rw [← Except.ok.inj h]

/-- The favorable excursion of the record stays at the take-profits. -/
theorem mfePct_partialNet_le {t : PartialRecord} (hstop : 0 < stop) (htake : 0 < take)
    (htp1 : tp1Pct ≤ take + 1) (htp2 : tp2Pct ≤ take + 1)
    (h : partialNet (highBars take) 0 1 100 "long" stop tp1Pct tp2Pct costPct = .ok t) :
    t.mfePct ≤ roundTo 4 (take + 1) := by
  rw [mfePct_of_mkPartial h]
  have hlong : isLong "long" = true := rfl
  have hreturn : ∀ price, returnPct "long" 100 price = price - 100 := by
    intro price
    simp only [returnPct, direction, if_true]
    ring
  have hlevel : ∀ pct price, pct ≤ take + 1 → level 100 pct true = some price →
      price ≤ 101 + take := by
    intro pct price hpct hprice
    simp only [level, if_true] at hprice
    split_ifs at hprice
    rw [← Option.some.inj hprice]
    linarith
  obtain ⟨-, hprice⟩ := exit_highBars take tp1Pct tp2Pct hstop
  have hexit : (exitOf (highBars take) 0 1 ((partialScan true 100 tp1Pct tp2Pct).run
      (partialStart 100 stop true) (highBars take))).price ≤ 101 + take := by
    rcases hprice with hprice | hprice
    · rw [hprice]
      linarith
    · exact hlevel _ _ htp2 hprice
  have hfirst : (level 100 tp1Pct true).getD 100 ≤ 101 + take := by
    cases hp : level 100 tp1Pct true with
    | none =>
      rw [Option.getD_none]
      linarith
    | some price => exact hlevel _ _ htp1 hp
  refine roundTo_mono 4 ?_
  rw [hreturn, hreturn]
  refine max_le (max_le (by linarith) ?_) ?_
  · have := hexit
    exact (sub_le_sub_right this 100).trans (by linarith)
  · rw [hlong]
    split_ifs
    · linarith
    · exact (sub_le_sub_right hexit 100).trans (by linarith)

theorem tradesOf_singleton {α : Type} {trade : Signal → Except String (Option α)} {sig : Signal}
    {ts : List α} (h : tradesOf trade [sig] = .ok ts) :
    ∃ o, trade sig = .ok o ∧ ts = o.toList := by
  simp only [tradesOf] at h
  cases htrade : trade sig with
  | error e => simp [htrade] at h
  | ok o =>
    cases o with
    | none => exact ⟨none, rfl, by simpa [htrade] using h.symm⟩
    | some t => exact ⟨some t, rfl, by simpa [htrade, Except.map] using h.symm⟩

/-- The trade that `simulate_exit_mode` makes of the high bars. -/
theorem mfePct_exitModeTrade_le {o : Option ExitModeTrade} (hstop : 0 < stop) (htake : 0 < take)
    (htp1 : tp1Pct ≤ take + 1) (htp2 : tp2Pct ≤ take + 1)
    (hparams : params.stopPct = some stop) (hhold : 0 < params.holdBars.getD 5)
    (h : exitModeTrade sha256 (highBars take) params { rule := .partialTake tp1Pct tp2Pct } costs false
      { idx := 0, side := "long" } = .ok o) :
    ∃ t, o = some t ∧ t.reading.mfePct ≤ roundTo 4 (take + 1) := by
  have hw : holdingWindow (highBars take) 0 (params.holdBars.getD 5) = some (1, 100) :=
    holdingWindow_pair (by norm_num) hhold
  simp only [exitModeTrade, Option.getD_none, hw, hparams, Option.getD_some] at h
  cases hnet : partialNet (highBars take) 0 1 100 "long" stop tp1Pct tp2Pct costs.pct with
  | error e => simp [hnet] at h
  | ok r =>
    simp only [hnet, Bool.false_eq_true, false_and, if_false] at h
    obtain ⟨t, ht, rfl⟩ := map_eq_ok.1 h
    refine ⟨_, rfl, ?_⟩
    obtain ⟨quantity, -, ht⟩ := bind_eq_ok.1 ht
    rw [← Except.ok.inj ht]
    exact mfePct_partialNet_le hstop htake htp1 htp2 hnet

/-- The trade that `simulate_trades` makes of the high bars. -/
theorem le_mfePct_tradeOf {o : Option Trade} (htwo : partialTakes params = some (tp1Pct, tp2Pct))
    (hstop : 0 < stop) (hparams : params.stopPct = some stop) (hhold : 0 < holdBarsOf params)
    (h : tradeOf sha256 (highBars take) params costs false { idx := 0, side := "long" } = .ok o) :
    ∃ t, o = some t ∧ roundTo 4 (10 + take) ≤ t.reading.mfePct := by
  have hw : holdingWindow (highBars take) 0 (holdBarsOf params) = some (1, 100) :=
    holdingWindow_pair (by norm_num) hhold
  rw [tradeOf_eq] at h
  simp only [hw, htwo, Bool.false_eq_true, false_and, if_false] at h
  obtain ⟨t, ht, rfl⟩ := map_eq_ok.1 h
  refine ⟨t, rfl, ?_⟩
  have hcore := bindPartialTrade_core ht
  have hmfe : t.reading.mfePct = t.toTradeCore.mfePct := rfl
  rw [hmfe, hcore]
  refine roundTo_mono 4 (le_mfePct_highBars ?_)
  rw [hparams]
  exact (exit_highBars _ _ _ hstop).1

/-- The record of `_mk_partial` does not see the high, the path of the production trade does. -/
theorem high_bars_disagree (h : PositiveParams params stop take hold) :
    ¬ ExitsAgree sha256 (highBars take) [{ idx := 0, side := "long" }] params "partial_tp"
      { rule := .partialTake (roundTo 4 (take * (1 / 2))) (roundTo 4 take) } costs false := by
  rintro ⟨ts, us, hts, hus, hread⟩
  have hstop := h.stop_pos
  have htake := h.take_pos
  have hname : exitModeOf (withExitMode params "partial_tp") = "partial_tp" :=
    exitModeOf_withExitMode params (by decide) (by decide +kernel)
  have hdynamic : IsDynamic (withExitMode params "partial_tp") := by
    rw [IsDynamic, hname]
    decide
  have hmode : dynamicMode (withExitMode params "partial_tp") =
      ⟨.partialTake (roundTo 6 (take * (1 / 2))) (roundTo 6 take), hold⟩ := by
    rw [dynamicMode, hname]
    exact (dynamicModeParams_eq h "partial_tp").trans (by simp)
  have htwo : partialTakes (withExitMode params "partial_tp") =
      some (roundTo 6 (take * (1 / 2)), roundTo 6 take) := by
    rw [partialTakes, if_pos hdynamic, hmode]
  have hholdOf : holdBarsOf (withExitMode params "partial_tp") = hold := by
    rw [holdBarsOf, if_pos hdynamic, hmode]
  obtain ⟨o, ho, rfl⟩ := tradesOf_singleton hts
  obtain ⟨o', ho', rfl⟩ := tradesOf_singleton hus
  have hround₁ := (abs_le.1 (abs_roundTo_sub_le 4 (take * (1 / 2)))).2
  have hround₂ := (abs_le.1 (abs_roundTo_sub_le 4 take)).2
  obtain ⟨t, rfl, ht⟩ := mfePct_exitModeTrade_le hstop htake (by linarith) (by linarith) h.stop_eq
    (by rw [h.hold_eq]; exact h.hold_pos) ho
  obtain ⟨t', rfl, ht'⟩ := le_mfePct_tradeOf htwo hstop h.stop_eq (by rw [hholdOf]; exact h.hold_pos) ho'
  have hmfe : t.reading.mfePct = t'.reading.mfePct := by
    simp only [Option.toList_some, List.map_cons, List.map_nil, List.cons.injEq, and_true] at hread
    rw [hread]
  have h₁ := abs_le.1 (abs_roundTo_sub_le 4 (10 + take))
  have h₂ := abs_le.1 (abs_roundTo_sub_le 4 (take + 1))
  linarith

theorem partial_tp_not_interchangeable (h : PositiveParams params stop take hold) :
    ¬ Interchangeable sha256 params "partial_tp"
      { rule := .partialTake (roundTo 4 (take * (1 / 2))) (roundTo 4 take) } costs :=
  fun hagree => high_bars_disagree h (hagree _ _ false (positivePrices_highBars h.take_pos) (by simp))

end

/-! ## All modes -/

/-- Under every mode of the grid the two simulators return the same trades if and only if the
roundings of its parameters do not show and it is not the partial mode. -/
theorem exit_modes_agree_iff (sha256 : String → String) {params : Params} {stop take : ℚ} {hold : ℤ}
    (h : PositiveParams params stop take hold) (costs : Costs) {name : String} {mode : ExitMode}
    (hmode : (name, mode) ∈ exitModes params) :
    Interchangeable sha256 params name mode costs ↔ RoundsAlike name stop take := by
  have hstop := h.stop_pos.le
  have htake := h.take_pos.le
  have hselects : ∀ {name : String} {rule : ExitRule} {hold' : ℤ}, name ≠ "" ∧ name ≠ "baseline" →
      normalizeMode name = name → dynamicModeParams params name = ⟨rule, hold'⟩ →
      (∀ tp1Pct tp2Pct, rule ≠ .partialTake tp1Pct tp2Pct) → Selects params name rule hold' :=
    fun hdynamic hnormal hrule hsingle =>
      selects_of_dynamic (exitModeOf_withExitMode params hdynamic.1 hnormal) hdynamic hrule hsingle
  have hhold : ∀ rule : ExitRule, ExitMode.hold { rule } params = hold := fun rule => by
    simp only [ExitMode.hold, h.hold_eq, Option.getD_none, Option.getD_some]
  rw [exitModes_eq h] at hmode
  simp only [List.mem_cons, Prod.mk.injEq, List.not_mem_nil, or_false] at hmode
  rcases hmode with ⟨rfl, rfl⟩ | ⟨rfl, rfl⟩ | ⟨rfl, rfl⟩ | ⟨rfl, rfl⟩ | ⟨rfl, rfl⟩ | ⟨rfl, rfl⟩ |
    ⟨rfl, rfl⟩ | ⟨rfl, rfl⟩
  · exact iff_of_true baseline_interchangeable (by simp [RoundsAlike])
  · have hearly : dynamicModeParams params "early_tp" =
        ⟨.fixed (some (roundTo 6 (take * (1 / 2)))), hold⟩ :=
      (dynamicModeParams_eq h _).trans (by simp)
    refine (early_tp_interchangeable_iff h (roundTo_nonneg (by positivity))
      (roundTo_nonneg (by positivity)) (hselects (by decide) (by decide +kernel) hearly
        fun _ _ hrule => by cases hrule)).trans ?_
    simp [RoundsAlike]
  · refine (trailing_interchangeable_iff h hstop (hselects (by decide) (by decide +kernel)
      ((dynamicModeParams_eq h _).trans (by simp)) fun _ _ hrule => by cases hrule)).trans ?_
    simp [RoundsAlike]
  · have htight : dynamicModeParams params "trailing_tight" =
        ⟨.trailing (roundTo 6 (stop * (1 / 2))), hold⟩ := (dynamicModeParams_eq h _).trans (by simp)
    refine (trailing_interchangeable_iff h (by positivity) (hselects (by decide) (by decide +kernel)
      htight fun _ _ hrule => by cases hrule)).trans ?_
    simp [RoundsAlike]
  · refine (break_even_interchangeable_iff h hstop (hselects (by decide) (by decide +kernel)
      ((dynamicModeParams_eq h _).trans (by simp)) fun _ _ hrule => by cases hrule)).trans ?_
    simp [RoundsAlike]
  · refine iff_of_true (interchangeable_of_same_rule (hselects (by decide) (by decide +kernel)
      ((dynamicModeParams_eq h _).trans (by simp)) fun _ _ hrule => by cases hrule)
        (fun _ _ hrule => by cases hrule) (hhold _) rfl) (by simp [RoundsAlike])
  · exact iff_of_false (partial_tp_not_interchangeable h) (by simp [RoundsAlike])
  · have hlong : max 1 (hold * 2) = hold * 2 := max_eq_right (by linarith [h.hold_pos])
    refine iff_of_true (interchangeable_of_same_rule (hselects (by decide) (by decide +kernel)
      ((dynamicModeParams_eq h _).trans (by simp)) fun _ _ hrule => by cases hrule)
        (fun _ _ hrule => by cases hrule) hlong.symm rfl) (by simp [RoundsAlike])

/-- A stop of 1 percent, a take-profit of 2 and five bars to hold. -/
def roundParams : Params := { holdBars := some 5, stopPct := some 1, takePct := some 2 }

theorem positiveParams_roundParams : PositiveParams roundParams 1 2 5 :=
  ⟨rfl, rfl, rfl, by norm_num, by norm_num, by norm_num⟩

theorem exit_modes_agree_iff_roundParams :
    Interchangeable Sha256.sha256 roundParams "trailing" { rule := .trailing (roundTo 4 1) } ⟨7, 3⟩ := by
  refine (exit_modes_agree_iff Sha256.sha256 positiveParams_roundParams ⟨7, 3⟩ ?_).2 (by decide +kernel)
  rw [exitModes_eq positiveParams_roundParams]
  exact List.mem_cons_of_mem _ (List.mem_cons_of_mem _ List.mem_cons_self)

/-- The two simulators read a partial trade of these parameters differently. -/
theorem partial_tp_differs :
    ("partial_tp", ({ rule := .partialTake (roundTo 4 (2 * (1 / 2))) (roundTo 4 2) } : ExitMode)) ∈
        exitModes roundParams ∧
      ¬ ExitsAgree Sha256.sha256 (highBars 2) [{ idx := 0, side := "long" }] roundParams "partial_tp"
        { rule := .partialTake (roundTo 4 (2 * (1 / 2))) (roundTo 4 2) } ⟨7, 3⟩ false := by
  refine ⟨?_, high_bars_disagree positiveParams_roundParams⟩
  rw [exitModes_eq positiveParams_roundParams]
  simp

end ResearchLab.Simulation
