import Mathlib
import ResearchLab.Simulation.Exits

/-!
# The batched simulator

`gpu_simulator`: the host decides entry, window and levels of every signal, the device searches
the first touched bar in a matrix with one row a signal and one column a bar, and
`finalize_trade` builds the trades.
-/
namespace ResearchLab.Simulation
open Foundation

/-- The keys that the batched simulator does not model; the source keeps them in a set. -/
def unsupportedExitParams : List String :=
  ["trailing_stop_pct", "trail_pct", "atr_stop_mult", "atr_take_mult", "exit_mode",
    "time_stop_bars_atr", "breakeven_pct", "partial_take_pct"]

/-- `key in params`. -/
def Params.has (params : Params) (key : String) : Bool :=
  if key = "exit_mode" then params.exitMode.isSome
  else if key = "hold_bars" then params.holdBars.isSome
  else if key = "stop_pct" then params.stopPct.isSome
  else if key = "take_pct" then params.takePct.isSome
  else decide (key ∈ params.otherKeys)

def supportedSimulationMode (params : Params) : Bool × String :=
  match unsupportedExitParams.find? params.has with
  | some key => (false, "unsupported_exit_mode:" ++ key)
  | none => (true, "")

/-! ## The host -/

/-- The scalars of one kept signal. -/
structure HostRow where
  sig : Signal
  idx : ℕ
  isLong : Bool
  entry : ℚ
  exitIdx : ℕ
  stopLevel : ℚ
  takeLevel : ℚ
  stopEnabled : Bool
  takeEnabled : Bool

/-- The levels of a kept signal. -/
def keptRow (stopPct takePct : ℚ) (sig : Signal) (exitIdx : ℕ) (entry : ℚ) : HostRow :=
  let long := isLong sig.side
  let stopLevel :=
    if long then if 0 < stopPct then entry * (1 - stopPct / 100) else 0
    else if 0 < stopPct then entry * (1 + stopPct / 100) else 0
  let takeLevel :=
    if long then if 0 < takePct then entry * (1 + takePct / 100) else 0
    else if 0 < takePct then entry * (1 - takePct / 100) else 0
  { sig, idx := sig.idx, isLong := long, entry, exitIdx, stopLevel, takeLevel
    -- the truth value of a level: 0 disables it
    stopEnabled := decide (0 < stopPct ∧ stopLevel ≠ 0)
    takeEnabled := decide (0 < takePct ∧ takeLevel ≠ 0) }

/-- One round of the loop; none where it continues. -/
def hostRow (candles : List Candle) (holdBars : ℤ) (stopPct takePct : ℚ) (sig : Signal) :
    Option HostRow :=
  let n := candles.length
  let exitIdx : ℤ := min (sig.idx + holdBars) (n - 1)
  if n ≤ sig.idx ∨ exitIdx ≤ sig.idx then none
  else
    let entry := (barAt candles sig.idx).openPrice
    if entry ≤ 0 then none else some (keptRow stopPct takePct sig exitIdx.toNat entry)

/-- `_host_setup`. -/
def hostSetup (candles : List Candle) (signals : List Signal) (holdBars : ℤ)
    (stopPct takePct : ℚ) : List HostRow :=
  signals.filterMap (hostRow candles holdBars stopPct takePct)

/-! ## The device -/

/-- `argmax` of a row of truth values: its first true column, or 0. -/
def argmax (row : List Bool) : ℕ := if row.any id then row.findIdx id else 0

/-- What the matrix says of one signal. -/
structure Touch where
  touched : Bool
  firstK : ℕ
  isStop : Bool

def stopHit (highs lows : List ℚ) (row : HostRow) (k : ℕ) : Bool :=
  let bar := min (row.idx + k) (highs.length - 1)
  decide (row.idx + k ≤ row.exitIdx) && row.stopEnabled &&
    if row.isLong then decide (lows.getD bar 0 ≤ row.stopLevel)
    else decide (row.stopLevel ≤ highs.getD bar 0)

def takeHit (highs lows : List ℚ) (row : HostRow) (k : ℕ) : Bool :=
  let bar := min (row.idx + k) (highs.length - 1)
  decide (row.idx + k ≤ row.exitIdx) && row.takeEnabled &&
    if row.isLong then decide (row.takeLevel ≤ highs.getD bar 0)
    else decide (lows.getD bar 0 ≤ row.takeLevel)

def anyTouch (highs lows : List ℚ) (holdBars : ℤ) (row : HostRow) : List Bool :=
  (List.range (holdBars + 1).toNat).map fun k =>
    stopHit highs lows row k || takeHit highs lows row k

def firstTouch (highs lows : List ℚ) (holdBars : ℤ) (row : HostRow) : Touch :=
  let firstK := argmax (anyTouch highs lows holdBars row)
  { touched := (anyTouch highs lows holdBars row).any id
    firstK
    isStop := stopHit highs lows row firstK }

/-- `_first_touch_batched`. -/
def firstTouchBatched (highs lows : List ℚ) (holdBars : ℤ) (rows : List HostRow) : List Touch :=
  rows.map (firstTouch highs lows holdBars)

/-- The exit that the host reads off a row of the matrix. -/
def touchedExit (candles : List Candle) (row : HostRow) (touch : Touch) : Exit :=
  if touch.touched then
    if touch.isStop then ⟨row.stopLevel, .stop, row.idx + touch.firstK⟩
    else ⟨row.takeLevel, .take, row.idx + touch.firstK⟩
  else ⟨(barAt candles row.exitIdx).close, .timeExit, row.exitIdx⟩

def simulateTradesBatched (sha256 : String → String) (candles : List Candle)
    (signals : List Signal) (params : Params) (costs : Costs) : Except String (List Trade) :=
  let holdBars := params.holdBars.getD 5
  let stopPct := params.stopPct.getD 0
  let takePct := params.takePct.getD 0
  match hostSetup candles signals holdBars stopPct takePct with
  | [] => .ok []
  | kept =>
      let touches := firstTouchBatched (candles.map Candle.high) (candles.map Candle.low)
        holdBars kept
      (kept.zip touches).mapM fun (row, touch) =>
        finalizeTrade sha256 candles row.idx (if row.isLong then "long" else "short") row.entry
          (touchedExit candles row touch) row.sig costs.pct (some (legacyFixtureManifest sha256))
          (some costs.ledger)

/-! ## The matrix finds the exit of the scan -/

theorem argmax_eq {row : List Bool} {k : ℕ} (hk : row[k]? = some true)
    (hfirst : ∀ i < k, row[i]? ≠ some true) : row.any id = true ∧ argmax row = k := by
  have hlt : k < row.length := (List.getElem?_eq_some_iff.1 hk).1
  have hany : row.any id = true := by
    rw [List.any_eq_true]
    exact ⟨true, List.mem_of_getElem? hk, rfl⟩
  refine ⟨hany, ?_⟩
  rw [argmax, if_pos hany, List.findIdx_eq hlt]
  refine ⟨by simpa [List.getElem?_eq_getElem hlt] using hk, fun i hi => ?_⟩
  have := hfirst i hi
  rw [List.getElem?_eq_getElem (by omega)] at this
  simpa using this

section
variable {candles : List Candle} {holdBars : ℤ} {stopPct takePct : ℚ} {sig : Signal}
  {row : HostRow}

/-- A column inside the window reads the bar of that offset. -/
theorem clampedBar {f : Candle → ℚ} {j : ℕ} (hj : j < candles.length) :
    (candles.map f).getD (min j ((candles.map Candle.high).length - 1)) 0 = f (barAt candles j) := by
  have hmin : min j ((candles.map Candle.high).length - 1) = j := by
    rw [List.length_map]
    omega
  rw [hmin, List.getD_eq_getElem _ _ (by simpa using hj), List.getElem_map, barAt,
    List.getD_eq_getElem _ _ hj]

/-- The host keeps the signals of the loop, with the window of the loop. -/
theorem hostRow_eq : hostRow candles holdBars stopPct takePct sig =
    (holdingWindow candles sig.idx holdBars).map fun w => keptRow stopPct takePct sig w.1 w.2 := by
  simp only [hostRow, holdingWindow]
  split_ifs <;> rfl

theorem hostRow_eq_some (h : hostRow candles holdBars stopPct takePct sig = some row) :
    holdingWindow candles sig.idx holdBars = some (row.exitIdx, row.entry) ∧ row.sig = sig ∧
      row.idx = sig.idx ∧ row.isLong = isLong sig.side := by
  rw [hostRow_eq] at h
  obtain ⟨⟨cap, entry⟩, hw, rfl⟩ := Option.map_eq_some_iff.1 h
  exact ⟨hw, rfl, rfl, rfl⟩

/-- The stop of a row is the enabled stop level of the scan. -/
theorem truthy_stop (h : hostRow candles holdBars stopPct takePct sig = some row) :
    truthy (level row.entry stopPct !row.isLong) =
      if row.stopEnabled then some row.stopLevel else none := by
  rw [hostRow_eq] at h
  obtain ⟨⟨cap, entry⟩, -, rfl⟩ := Option.map_eq_some_iff.1 h
  by_cases hpct : 0 < stopPct
  · cases hlong : isLong sig.side <;>
      simp [keptRow, hlong, truthy, level, hpct, not_le.2 hpct, Option.filter_some]
  · simp [keptRow, truthy, level, hpct, not_lt.1 hpct]

theorem truthy_take (h : hostRow candles holdBars stopPct takePct sig = some row) :
    truthy (level row.entry takePct row.isLong) =
      if row.takeEnabled then some row.takeLevel else none := by
  rw [hostRow_eq] at h
  obtain ⟨⟨cap, entry⟩, -, rfl⟩ := Option.map_eq_some_iff.1 h
  by_cases hpct : 0 < takePct
  · cases hlong : isLong sig.side <;>
      simp [keptRow, hlong, truthy, level, hpct, not_le.2 hpct, Option.filter_some]
  · simp [keptRow, truthy, level, hpct, not_lt.1 hpct]

/-- Inside the window the two hits of a column are the two touches of the scan. -/
theorem exit?_baselineScanner (h : hostRow candles holdBars stopPct takePct sig = some row) {k : ℕ}
    (hk : row.idx + k ≤ row.exitIdx) :
    (baselineScanner row.isLong (level row.entry stopPct !row.isLong)
        (level row.entry takePct row.isLong)).exit? () (barAt candles (row.idx + k)) =
      if stopHit (candles.map Candle.high) (candles.map Candle.low) row k then
        some (row.stopLevel, .stop)
      else if takeHit (candles.map Candle.high) (candles.map Candle.low) row k then
        some (row.takeLevel, .take)
      else none := by
  have hlen : row.idx + k < candles.length := by
    have := (holdingWindow_eq_some (hostRow_eq_some h).1).2.1
    omega
  simp only [baselineScanner, truthy_stop h, truthy_take h, stopHit, takeHit, clampedBar hlen, hk,
    decide_true, Bool.true_and]
  have hfilter : ∀ (enabled : Bool) (price : ℚ) (p : ℚ → Bool),
      (if enabled then some price else none).filter p =
        if enabled && p price then some price else none := by
    intro enabled price p
    cases enabled <;> simp [Option.filter_some]
  simp only [hfilter, stopTouched, takeTouched]
  split_ifs <;> simp_all

/-- No column behind the window is a hit. -/
theorem no_hit_behind {highs lows : List ℚ} {k : ℕ} (hk : row.exitIdx < row.idx + k) :
    (stopHit highs lows row k || takeHit highs lows row k) = false := by
  simp [stopHit, takeHit, not_le.2 hk]

theorem touchedExit_firstTouch (h : hostRow candles holdBars stopPct takePct sig = some row) :
    touchedExit candles row
        (firstTouch (candles.map Candle.high) (candles.map Candle.low) holdBars row) =
      baselineExit candles row.idx row.exitIdx row.entry sig.side stopPct takePct := by
  obtain ⟨hw, -, hidx, hlong⟩ := hostRow_eq_some h
  obtain ⟨hlt, hcap, hhold, -⟩ := holdingWindow_eq_some hw
  rw [← hidx] at hlt hhold
  set S := baselineScanner row.isLong (level row.entry stopPct !row.isLong)
    (level row.entry takePct row.isLong)
  let hit := fun k => stopHit (candles.map Candle.high) (candles.map Candle.low) row k ||
    takeHit (candles.map Candle.high) (candles.map Candle.low) row k
  set columns := anyTouch (candles.map Candle.high) (candles.map Candle.low) holdBars row
    with hcolumns
  have hcolumn : ∀ k, row.idx + k ≤ row.exitIdx → columns[k]? = some (hit k) := by
    intro k hk
    rw [hcolumns, anyTouch, List.getElem?_map, List.getElem?_range (by omega), Option.map_some]
  have hnoHit : ∀ k, row.idx + k ≤ row.exitIdx →
      S.exit? () (barAt candles (row.idx + k)) = none → hit k = false := by
    intro k hk hnone
    rw [exit?_baselineScanner h hk] at hnone
    simp only [hit, Bool.or_eq_false_iff]
    split_ifs at hnone
    simp_all
  rw [baselineExit, ← hlong]
  cases hrun : S.run () (barsBetween candles row.idx row.exitIdx) with
  | none =>
    have hopen := (S.run_eq_none).1 hrun
    have hany : columns.any id = false := by
      rw [List.any_eq_false]
      intro b hb
      rw [hcolumns, anyTouch] at hb
      obtain ⟨k, -, rfl⟩ := List.mem_map.1 hb
      rcases le_or_gt (row.idx + k) row.exitIdx with hk | hk
      · have := hnoHit k hk (hopen k (by rw [length_barsBetween hcap]; omega) _
          (barsBetween_getElem? hcap hk))
        exact ne_true_of_eq_false this
      · exact ne_true_of_eq_false (no_hit_behind hk)
    simp only [touchedExit, firstTouch, exitOf, ← hcolumns, hany, Bool.false_eq_true, if_false]
  | some r =>
    obtain ⟨k, price, outcome⟩ := r
    obtain ⟨hopen, bar, hbar, hexit⟩ := (S.run_eq_some).1 hrun
    have hk : row.idx + k ≤ row.exitIdx := by
      have := S.lt_of_run hrun
      rw [length_barsBetween hcap] at this
      omega
    obtain rfl : bar = barAt candles (row.idx + k) := by
      rw [barsBetween_getElem? hcap hk] at hbar
      exact (Option.some.inj hbar).symm
    have hbefore : ∀ i < k, columns[i]? ≠ some true := by
      intro i hi
      rw [hcolumn i (by omega), hnoHit i (by omega) (hopen i hi _
        (barsBetween_getElem? hcap (by omega)))]
      simp
    rw [exit?_baselineScanner h hk] at hexit
    have hhit : hit k = true := by
      simp only [hit, Bool.or_eq_true]
      split_ifs at hexit <;> simp_all
    obtain ⟨hany, hmax⟩ := argmax_eq (by rw [hcolumn k hk, hhit]) hbefore
    simp only [touchedExit, firstTouch, exitOf, ← hcolumns, hany, hmax, if_true]
    split_ifs at hexit ⊢ <;> simp_all

end

end ResearchLab.Simulation
