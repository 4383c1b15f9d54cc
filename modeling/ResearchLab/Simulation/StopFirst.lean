import Mathlib
import ResearchLab.Foundation.Sha256
import ResearchLab.Simulation.StopLevels

/-!
# Stop before take

On a bar that touches the stop in force and a take-profit the manifest of every trade promises
the stop. All scans keep the promise but the second phase of a partial exit, which looks at the
second take-profit before the break-even stop.
-/
namespace ResearchLab.Simulation
open Foundation

/-! ## The stop in force -/

/-- The bar of an offset touches a price that is the stop in force at its start. -/
def StopTouchedAt (params : Params) (long : Bool) (entry : ℚ) (bars : List Candle) (k : ℕ)
    (price : ℚ) : Prop :=
  stopInForce params long entry bars k = some price ∧
    ∃ bar, bars[k]? = some bar ∧ stopTouched long bar price

/-- At the first bar that touches the stop in force the trade is closed, at the stop, unless it
is closed before. -/
def StopFirst (candles : List Candle) (params : Params) (sig : Signal) (t : Trade) : Prop :=
  ∀ cap entry, holdingWindow candles sig.idx (holdBarsOf params) = some (cap, entry) →
    let bars := barsBetween candles sig.idx cap
    ∀ k price, StopTouchedAt params (isLong sig.side) entry bars k price →
      (∀ i < k, ∀ p, ¬ StopTouchedAt params (isLong sig.side) entry bars i p) →
      t.barsHeld < k ∨ (t.barsHeld = k ∧ t.exit = roundTo 10 price ∧ t.outcome ≠ .take ∧
        t.outcome ≠ .timeExit)

/-! ## The bars that break the promise -/

/-- The price of a level is touched. -/
def touches (touched : Candle → ℚ → Bool) (l : Option ℚ) (bar : Candle) : Bool :=
  (l.filter (touched bar)).isSome

/-- A bar fills the first half before the stop is hit, and the first bar behind it that touches
the entry price or the second take-profit touches both. -/
def SecondPhaseDualTouch (long : Bool) (entry : ℚ) (stop tp1 tp2 : Option ℚ)
    (bars : List Candle) : Prop :=
  ∃ before fill between both behind, bars = before ++ fill :: between ++ both :: behind ∧
    (∀ bar ∈ before, touches (stopTouched long) stop bar = false ∧
      touches (takeTouched long) tp1 bar = false) ∧
    touches (stopTouched long) stop fill = false ∧ touches (takeTouched long) tp1 fill ∧
    (∀ bar ∈ between, stopTouched long bar entry = false ∧
      touches (takeTouched long) tp2 bar = false) ∧
    stopTouched long both entry ∧ touches (takeTouched long) tp2 both

/-- The window of a signal in a partial mode has such bars. -/
def DualTouchAfterPartial (candles : List Candle) (params : Params) (sig : Signal) : Prop :=
  ∃ cap entry tp1Pct tp2Pct, holdingWindow candles sig.idx (holdBarsOf params) = some (cap, entry) ∧
    partialTakes params = some (tp1Pct, tp2Pct) ∧
    SecondPhaseDualTouch (isLong sig.side) entry
      (level entry (params.stopPct.getD 0) !isLong sig.side)
      (level entry tp1Pct (isLong sig.side)) (level entry tp2Pct (isLong sig.side))
      (barsBetween candles sig.idx cap)

/-! ## Scans that look at the stop first -/

section
variable {σ : Type} {S : Scanner σ Candle (ℚ × Outcome)} {s : σ} {bars : List Candle} {k : ℕ}

/-- An offset at which the scan would leave is the exit, unless it leaves before. -/
theorem exit_of_exit? {bar : Candle} {e : ℚ × Outcome} (hbar : bars[k]? = some bar)
    (he : S.exit? (S.stateAt s bars k) bar = some e) :
    (∃ i e', i < k ∧ S.run s bars = some (i, e')) ∨ S.run s bars = some (k, e) := by
  cases hrun : S.run s bars with
  | none =>
    have hopen := (S.run_eq_none).1 hrun
    have hlt : k < bars.length := (List.getElem?_eq_some_iff.1 hbar).1
    rw [hopen k hlt bar hbar] at he
    cases he
  | some r =>
    obtain ⟨i, e'⟩ := r
    obtain ⟨hopen, bar', hbar', he'⟩ := (S.run_eq_some).1 hrun
    rcases lt_trichotomy i k with hik | rfl | hik
    · exact .inl ⟨i, e', hik, rfl⟩
    · obtain rfl := Option.some.inj (hbar.symm.trans hbar')
      exact .inr (by rw [Option.some.inj (he.symm.trans he')])
    · rw [hopen k hik bar hbar] at he
      cases he

/-- The exit lies at an offset whose bar makes the scan leave by a stop, or before. -/
theorem closed_by {candles : List Candle} {idx cap : ℕ} {bar : Candle} {price : ℚ}
    {outcome : Outcome} (hbar : bars[k]? = some bar)
    (he : S.exit? (S.stateAt s bars k) bar = some (price, outcome))
    (hstop : outcome ≠ .take ∧ outcome ≠ .timeExit) :
    (exitOf candles idx cap (S.run s bars)).idx - idx < k ∨
      ∃ outcome, exitOf candles idx cap (S.run s bars) = ⟨price, outcome, idx + k⟩ ∧
        outcome ≠ .take ∧ outcome ≠ .timeExit := by
  rcases exit_of_exit? hbar he with ⟨i, e', hik, hrun⟩ | hrun
  · left
    rw [hrun, exitOf]
    dsimp only
    omega
  · right
    rw [hrun, exitOf]
    exact ⟨outcome, rfl, hstop⟩

end

theorem exit?_dynamic_stop {rule : ExitRule} {long : Bool} {entry stopPct price : ℚ} {span : ℕ}
    {take : Option ℚ} {st : ScanState} {bar : Candle} (h : st.stop = some price)
    (htouch : stopTouched long bar price) :
    (dynamicScanner rule long entry stopPct span take).exit? st bar =
      some (price, stopOutcome rule) := by
  simp only [dynamicScanner, h]
  rw [Option.filter_some, if_pos htouch]

theorem exit?_baseline_stop {long : Bool} {stop take : Option ℚ} {price : ℚ} {bar : Candle}
    (h : truthy stop = some price) (htouch : stopTouched long bar price) :
    (baselineScanner long stop take).exit? () bar = some (price, .stop) := by
  simp only [baselineScanner, h]
  rw [Option.filter_some, if_pos htouch]

theorem exit?_partial_none {long : Bool} {entry price : ℚ} {tp1 tp2 : Option ℚ}
    {st : PartialState} {bar : Candle} (h : st.stop = some price)
    (hexit : (partialScanner long entry tp1 tp2).exit? st bar = none) :
    stopTouched long bar price = false := by
  by_contra htouch
  rw [Bool.not_eq_false] at htouch
  simp only [partialScanner, h] at hexit
  rw [Option.filter_some, if_pos htouch] at hexit
  split_ifs at hexit
  · cases hexit
  · split at hexit <;> cases hexit

theorem touches_eq_true {touched : Candle → ℚ → Bool} {l : Option ℚ} {bar : Candle} :
    touches touched l bar = true ↔ ∃ price, l = some price ∧ touched bar price = true := by
  cases l <;> simp [touches]

theorem touches_eq_false {touched : Candle → ℚ → Bool} {l : Option ℚ} {bar : Candle} :
    touches touched l bar = false ↔ l.filter (touched bar) = none := by
  cases l <;> simp [touches]

/-! ## The two phases of a partial scan -/

section
variable {long : Bool} {entry : ℚ} {stop tp1 tp2 : Option ℚ} {bars : List Candle} {k : ℕ} {p : ℚ}

/-- Once the first half is sold the stop is the entry. -/
theorem stateAt_filled (long : Bool) (entry : ℚ) (stop : Option ℚ) (tp1 tp2 : Option ℚ) (bars : List Candle) (k : ℕ) :
    (partialScanner long entry tp1 tp2).stateAt ⟨false, stop⟩ bars k = ⟨false, stop⟩ ∨
      (partialScanner long entry tp1 tp2).stateAt ⟨false, stop⟩ bars k = ⟨true, some entry⟩ := by
  refine Scanner.stateAt_induction (P := fun st : PartialState => st = ⟨false, stop⟩ ∨
    st = ⟨true, some entry⟩) _ (.inl rfl) (fun st b _ hst => ?_) k
  simp only [partialScanner]
  split_ifs with h
  · exact .inr rfl
  · exact hst

/-- A partial scan leaves by the take at a bar that touches the entry. -/
def TakesAtEntry (long : Bool) (entry : ℚ) (tp1 tp2 : Option ℚ) (st : PartialState)
    (bars : List Candle) : Prop :=
  ∃ k p bar, (partialScanner long entry tp1 tp2).run st bars = some (k, p, .take) ∧
    bars[k]? = some bar ∧ stopTouched long bar entry

theorem not_takesAtEntry_nil (st : PartialState) : ¬ TakesAtEntry long entry tp1 tp2 st [] := by
  rintro ⟨k, p, bar, -, hbar, -⟩
  simp at hbar

theorem takesAtEntry_cons {st : PartialState} {b : Candle} :
    TakesAtEntry long entry tp1 tp2 st (b :: bars) ↔
      (∃ p, (partialScanner long entry tp1 tp2).exit? st b = some (p, .take) ∧
        stopTouched long b entry) ∨
      ((partialScanner long entry tp1 tp2).exit? st b = none ∧
        TakesAtEntry long entry tp1 tp2 ((partialScanner long entry tp1 tp2).next st b) bars) := by
  simp only [TakesAtEntry, Scanner.run]
  cases he : (partialScanner long entry tp1 tp2).exit? st b with
  | some e =>
    obtain ⟨price, outcome⟩ := e
    constructor
    · rintro ⟨k, p, bar, hrun, hbar, htouch⟩
      obtain ⟨rfl, rfl, rfl⟩ : 0 = k ∧ price = p ∧ outcome = .take := by simpa using hrun
      obtain rfl := Option.some.inj hbar
      exact .inl ⟨_, rfl, htouch⟩
    · rintro (⟨p, hp, htouch⟩ | ⟨hnone, -⟩)
      · obtain ⟨rfl, rfl⟩ : price = p ∧ outcome = .take := by simpa using hp
        exact ⟨0, _, b, rfl, rfl, htouch⟩
      · cases hnone
  | none =>
    constructor
    · rintro ⟨k, p, bar, hrun, hbar, htouch⟩
      obtain ⟨k', hrun', rfl⟩ : ∃ k', (partialScanner long entry tp1 tp2).run
          ((partialScanner long entry tp1 tp2).next st b) bars = some (k', p, .take) ∧
            k' + 1 = k := by simpa using hrun
      exact .inr ⟨rfl, k', p, bar, hrun', by simpa using hbar, htouch⟩
    · rintro (⟨p, hp, -⟩ | ⟨-, k, p, bar, hrun, hbar, htouch⟩)
      · cases hp
      · exact ⟨k + 1, p, bar, by simp [hrun], by simpa using hbar, htouch⟩

/-- In the second phase: the first bar that touches the entry or the take touches both. -/
theorem takesAtEntry_second :
    TakesAtEntry long entry tp1 tp2 ⟨true, some entry⟩ bars ↔
      ∃ between both behind, bars = between ++ both :: behind ∧
        (∀ bar ∈ between, stopTouched long bar entry = false ∧
          touches (takeTouched long) tp2 bar = false) ∧
        stopTouched long both entry ∧ touches (takeTouched long) tp2 both := by
  induction bars with
  | nil => simp [not_takesAtEntry_nil]
  | cons b bars ih =>
    have hnext : (partialScanner long entry tp1 tp2).next ⟨true, some entry⟩ b =
        ⟨true, some entry⟩ := by simp [partialScanner]
    rw [takesAtEntry_cons, hnext, ih]
    cases htake : touches (takeTouched long) tp2 b with
    | true =>
      obtain ⟨p, hp, htouch⟩ := touches_eq_true.1 htake
      have he : (partialScanner long entry tp1 tp2).exit? ⟨true, some entry⟩ b =
          some (p, .take) := by simp [partialScanner, hp, Option.filter_some, htouch]
      constructor
      · rintro (⟨p', -, hstop⟩ | ⟨hnone, -⟩)
        · exact ⟨[], b, bars, rfl, by simp, hstop, htake⟩
        · rw [he] at hnone
          cases hnone
      · rintro ⟨between, both, behind, heq, hbetween, hboth, -⟩
        cases between with
        | nil =>
          obtain ⟨rfl, rfl⟩ := List.cons.inj heq
          exact .inl ⟨p, he, hboth⟩
        | cons c between =>
          obtain ⟨rfl, -⟩ := List.cons.inj heq
          simp [htake] at hbetween
    | false =>
      have hfilter := touches_eq_false.1 htake
      cases hstop : stopTouched long b entry with
      | true =>
        have he : (partialScanner long entry tp1 tp2).exit? ⟨true, some entry⟩ b =
            some (entry, .partialBe) := by
          simp [partialScanner, hfilter, Option.filter_some, hstop]
        constructor
        · rintro (⟨p', hp', -⟩ | ⟨hnone, -⟩)
          · rw [he] at hp'
            cases hp'
          · rw [he] at hnone
            cases hnone
        · rintro ⟨between, both, behind, heq, hbetween, -, hboth⟩
          cases between with
          | nil =>
            obtain ⟨rfl, -⟩ := List.cons.inj heq
            simp [htake] at hboth
          | cons c between =>
            obtain ⟨rfl, -⟩ := List.cons.inj heq
            simp [hstop] at hbetween
      | false =>
        have he : (partialScanner long entry tp1 tp2).exit? ⟨true, some entry⟩ b = none := by
          simp [partialScanner, hfilter, Option.filter_some, hstop]
        constructor
        · rintro (⟨p', hp', -⟩ | ⟨-, between, both, behind, rfl, hbetween, hboth⟩)
          · rw [he] at hp'
            cases hp'
          · exact ⟨b :: between, both, behind, rfl,
              List.forall_mem_cons.2 ⟨⟨hstop, htake⟩, hbetween⟩, hboth⟩
        · rintro ⟨between, both, behind, heq, hbetween, hboth⟩
          cases between with
          | nil =>
            obtain ⟨rfl, -⟩ := List.cons.inj heq
            simp [hstop] at hboth
          | cons c between =>
            obtain ⟨rfl, rfl⟩ := List.cons.inj heq
            exact .inr ⟨he, between, both, behind, rfl, (List.forall_mem_cons.1 hbetween).2, hboth⟩

/-- In the first phase: a bar fills the first half before the stop is touched, and the second
phase takes at the entry behind it. -/
theorem takesAtEntry_first :
    TakesAtEntry long entry tp1 tp2 ⟨false, stop⟩ bars ↔
      SecondPhaseDualTouch long entry stop tp1 tp2 bars := by
  induction bars with
  | nil => simp [not_takesAtEntry_nil, SecondPhaseDualTouch]
  | cons b bars ih =>
    rw [takesAtEntry_cons]
    cases hstop : touches (stopTouched long) stop b with
    | true =>
      obtain ⟨price, hp, htouch⟩ := touches_eq_true.1 hstop
      have he : (partialScanner long entry tp1 tp2).exit? ⟨false, stop⟩ b =
          some (price, .stop) := by simp [partialScanner, hp, Option.filter_some, htouch]
      constructor
      · rintro (⟨p', hp', -⟩ | ⟨hnone, -⟩)
        · rw [he] at hp'
          cases hp'
        · rw [he] at hnone
          cases hnone
      · rintro ⟨before, fill, between, both, behind, heq, hbefore, hfill, -⟩
        cases before with
        | nil =>
          obtain ⟨rfl, -⟩ := List.cons.inj heq
          simp [hstop] at hfill
        | cons c before =>
          obtain ⟨rfl, -⟩ := List.cons.inj heq
          simp [hstop] at hbefore
    | false =>
      have he : (partialScanner long entry tp1 tp2).exit? ⟨false, stop⟩ b = none := by
        simp [partialScanner, touches_eq_false.1 hstop]
      have hleft : ∀ R : Prop, ((∃ p, (partialScanner long entry tp1 tp2).exit? ⟨false, stop⟩ b =
          some (p, .take) ∧ stopTouched long b entry) ∨
            ((partialScanner long entry tp1 tp2).exit? ⟨false, stop⟩ b = none ∧ R)) ↔ R := by
        intro R
        simp [he]
      rw [hleft]
      cases htake : touches (takeTouched long) tp1 b with
      | true =>
        have hnext : (partialScanner long entry tp1 tp2).next ⟨false, stop⟩ b =
            ⟨true, some entry⟩ := by
          have : (tp1.filter (takeTouched long b)).isSome = true := htake
          simp only [partialScanner, this, Bool.not_false, and_self, if_true]
        rw [hnext, takesAtEntry_second]
        constructor
        · rintro ⟨between, both, behind, rfl, hbetween, hboth⟩
          exact ⟨[], b, between, both, behind, rfl, by simp, hstop, htake, hbetween, hboth⟩
        · rintro ⟨before, fill, between, both, behind, heq, hbefore, -, -, hbetween, hboth⟩
          cases before with
          | nil =>
            obtain ⟨rfl, rfl⟩ := List.cons.inj heq
            exact ⟨between, both, behind, rfl, hbetween, hboth⟩
          | cons c before =>
            obtain ⟨rfl, -⟩ := List.cons.inj heq
            simp [htake] at hbefore
      | false =>
        have hnext : (partialScanner long entry tp1 tp2).next ⟨false, stop⟩ b =
            ⟨false, stop⟩ := by
          have : (tp1.filter (takeTouched long b)).isSome = false := htake
          simp only [partialScanner, this, Bool.not_false, Bool.false_eq_true, and_false, if_false]
        rw [hnext, ih]
        constructor
        · rintro ⟨before, fill, between, both, behind, rfl, hbefore, hrest⟩
          exact ⟨b :: before, fill, between, both, behind, rfl,
            List.forall_mem_cons.2 ⟨⟨hstop, htake⟩, hbefore⟩, hrest⟩
        · rintro ⟨before, fill, between, both, behind, heq, hbefore, hstop', hfill, hrest⟩
          cases before with
          | nil =>
            obtain ⟨rfl, -⟩ := List.cons.inj heq
            simp [htake] at hfill
          | cons c before =>
            obtain ⟨rfl, rfl⟩ := List.cons.inj heq
            exact ⟨before, fill, between, both, behind, rfl, (List.forall_mem_cons.1 hbefore).2,
              hstop', hfill, hrest⟩

end

/-! ## The promise -/

section
variable {sha256 : String → String} {candles : List Candle} {params : Params} {costs : Costs}
  {requireCompleteHorizon : Bool} {sig : Signal} {t : Trade} {cap : ℕ} {entry : ℚ}

/-- At a stop in force outside the second take of a partial mode the exit is that stop. -/
theorem stopped_at {k : ℕ} {price : ℚ}
    (hw : holdingWindow candles sig.idx (holdBarsOf params) = some (cap, entry))
    (hdual : ¬ DualTouchAfterPartial candles params sig)
    (hstop : StopTouchedAt params (isLong sig.side) entry (barsBetween candles sig.idx cap) k
      price) :
    (decidedExit candles params sig cap entry).idx - sig.idx < k ∨
      ∃ outcome, decidedExit candles params sig cap entry = ⟨price, outcome, sig.idx + k⟩ ∧
        outcome ≠ .take ∧ outcome ≠ .timeExit := by
  obtain ⟨hforce, bar, hbar, htouch⟩ := hstop
  obtain ⟨hlt, hlen, -, hpos⟩ := holdingWindow_eq_some hw
  rw [stopInForce_eq hpos] at hforce
  unfold scannedStop at hforce
  unfold decidedExit
  cases htwo : partialTakes params with
  | none =>
    simp only [htwo] at hforce ⊢
    by_cases hmode : IsDynamic params
    · rw [if_pos hmode] at hforce ⊢
      have hspan : (barsBetween candles sig.idx cap).length - 1 = cap - sig.idx := by
        rw [length_barsBetween hlen]
        omega
      rw [hspan] at hforce
      refine closed_by hbar (exit?_dynamic_stop hforce htouch) ?_
      cases (dynamicMode params).rule <;> simp [stopOutcome]
    · rw [if_neg hmode] at hforce ⊢
      exact closed_by hbar (exit?_baseline_stop hforce htouch) (by simp)
  | some takes =>
    obtain ⟨tp1Pct, tp2Pct⟩ := takes
    simp only [htwo] at hforce ⊢
    set S := partialScan (isLong sig.side) entry tp1Pct tp2Pct with hS
    set start := partialStart entry (params.stopPct.getD 0) (isLong sig.side) with hstart
    rcases stateAt_filled (isLong sig.side) entry
      (level entry (params.stopPct.getD 0) !isLong sig.side) (level entry tp1Pct (isLong sig.side))
      (level entry tp2Pct (isLong sig.side)) (barsBetween candles sig.idx cap) k with hst | hst
    · have hst : S.stateAt start (barsBetween candles sig.idx cap) k = start := hst
      have hinit : level entry (params.stopPct.getD 0) (!isLong sig.side) = some price := by
        rw [hst] at hforce
        exact hforce
      have he : S.exit? (S.stateAt start (barsBetween candles sig.idx cap) k) bar =
          some (price, .stop) := by
        rw [hst, hS, hstart]
        simp [partialScan, partialScanner, partialStart, hinit, Option.filter_some, htouch]
      exact closed_by hbar he (by simp)
    · have hst : S.stateAt start (barsBetween candles sig.idx cap) k = ⟨true, some entry⟩ := hst
      obtain rfl : entry = price := by
        rw [hst] at hforce
        exact Option.some.inj hforce
      cases htake : (level entry tp2Pct (isLong sig.side)).filter
          (takeTouched (isLong sig.side) bar) with
      | none =>
        have he : S.exit? (S.stateAt start (barsBetween candles sig.idx cap) k) bar =
            some (entry, .partialBe) := by
          rw [hst, hS]
          simp [partialScan, partialScanner, htake, Option.filter_some, htouch]
        exact closed_by hbar he (by simp)
      | some p =>
        -- the take is touched as well, so the scan must have left before this bar
        have he : S.exit? (S.stateAt start (barsBetween candles sig.idx cap) k) bar =
            some (p, .take) := by
          rw [hst, hS]
          simp [partialScan, partialScanner, htake]
        rcases exit_of_exit? hbar he with ⟨i, e', hik, hrun⟩ | hrun
        · left
          rw [hrun, exitOf]
          dsimp only
          omega
        · refine absurd ⟨cap, entry, tp1Pct, tp2Pct, hw, htwo, ?_⟩ hdual
          exact takesAtEntry_first.1 ⟨k, p, bar, hrun, hbar, htouch⟩

/-- A bar that touches the second take and the break-even stop is left by the take. -/
theorem taken_at (hw : holdingWindow candles sig.idx (holdBarsOf params) = some (cap, entry))
    (hdual : DualTouchAfterPartial candles params sig) :
    ∃ k p price, decidedExit candles params sig cap entry = ⟨p, .take, sig.idx + k⟩ ∧
      StopTouchedAt params (isLong sig.side) entry (barsBetween candles sig.idx cap) k price ∧
      ∀ i < k, ∀ p, ¬ StopTouchedAt params (isLong sig.side) entry
        (barsBetween candles sig.idx cap) i p := by
  obtain ⟨cap', entry', tp1Pct, tp2Pct, hw', htwo, hbars⟩ := hdual
  obtain ⟨rfl, rfl⟩ : cap' = cap ∧ entry' = entry := by simpa [hw] using hw'.symm
  obtain ⟨k, p, bar, hrun, hbar, htouch⟩ := takesAtEntry_first.2 hbars
  set S := partialScan (isLong sig.side) entry' tp1Pct tp2Pct with hS
  set start := partialStart entry' (params.stopPct.getD 0) (isLong sig.side) with hstart
  have hrun : S.run start (barsBetween candles sig.idx cap') = some (k, p, .take) := hrun
  obtain ⟨hopen, bar', hbar', he⟩ := (S.run_eq_some).1 hrun
  have hforce : ∀ i, stopInForce params (isLong sig.side) entry' (barsBetween candles sig.idx cap')
      i = (S.stateAt start (barsBetween candles sig.idx cap') i).stop := by
    intro i
    obtain ⟨-, -, -, hpos⟩ := holdingWindow_eq_some hw
    rw [stopInForce_eq hpos]
    simp only [scannedStop, htwo]
    rfl
  refine ⟨k, p, entry', ?_, ⟨?_, bar, hbar, htouch⟩, ?_⟩
  · simp only [decidedExit, htwo]
    rw [hrun]
    rfl
  · rw [hforce]
    rcases stateAt_filled (isLong sig.side) entry'
      (level entry' (params.stopPct.getD 0) !isLong sig.side)
      (level entry' tp1Pct (isLong sig.side)) (level entry' tp2Pct (isLong sig.side))
      (barsBetween candles sig.idx cap') k with hst | hst
    · -- the first phase never leaves by a take
      have hst : S.stateAt start (barsBetween candles sig.idx cap') k = start := hst
      rw [hst, hS, hstart] at he
      simp [partialScan, partialScanner, partialStart] at he
    · have hst : S.stateAt start (barsBetween candles sig.idx cap') k = ⟨true, some entry'⟩ := hst
      rw [hst]
  · rintro i hi q ⟨hq, bar'', hbar'', htouch''⟩
    rw [hforce] at hq
    rw [exit?_partial_none hq (hopen i hi bar'' hbar'')] at htouch''
    cases htouch''

/-- Every trade promises the stop on a dual touch, and a trade keeps the promise unless it took
its second profit on a bar that touched the entry. -/
theorem stopFirst_iff
    (ht : tradeOf sha256 candles params costs requireCompleteHorizon sig = .ok (some t)) :
    t.simulatorManifest = legacyFixtureManifest sha256 ∧
      ("dual_touch", "stop_first_fixture") ∈ t.simulatorManifest.policies ∧
      (StopFirst candles params sig t ↔ ¬ DualTouchAfterPartial candles params sig) := by
  obtain ⟨cap, entry, hw, hmanifest, houtcome, hexit, hheld⟩ := describes_decidedExit ht
  refine ⟨hmanifest, ?_, ?_⟩
  · rw [hmanifest]
    exact List.mem_of_elem_eq_true rfl
  constructor
  · intro hfirst hdual
    obtain ⟨k, p, price, hdecided, htouch, hbefore⟩ := taken_at hw hdual
    rcases hfirst cap entry hw k price htouch hbefore with hlt | ⟨-, -, htake, -⟩
    · rw [hheld, hdecided] at hlt
      dsimp only at hlt
      omega
    · rw [houtcome, hdecided] at htake
      exact htake rfl
  · intro hdual cap' entry' hw' bars k price htouch _
    obtain ⟨rfl, rfl⟩ : cap = cap' ∧ entry = entry' := by simpa [hw] using hw'
    rcases stopped_at hw hdual htouch with hlt | ⟨outcome, hdecided, hout⟩
    · exact .inl (by omega)
    · refine .inr ⟨?_, ?_, ?_⟩
      · rw [hheld, hdecided]
        exact Nat.add_sub_cancel_left _ _
      · rw [hexit, hdecided]
      · rw [houtcome, hdecided]
        exact hout

end

/-- The first half is sold on the second bar; the third touches the entry and the second take. -/
def wideBars : List Candle :=
  [⟨0, 100, 101, 99, 100⟩, ⟨1, 101, 103, 101, 102⟩, ⟨2, 102, 105, 99, 101⟩]

def partialParams : Params :=
  { exitMode := some "partial_tp", holdBars := some 2, stopPct := some 2, takePct := some 4 }

theorem wideBars_trade : ∃ t, tradeOf Sha256.sha256 wideBars partialParams ⟨5, 2⟩ false
    ⟨0, "long", none, none⟩ = .ok (some t) := by
  have hsome : ((tradeOf Sha256.sha256 wideBars partialParams ⟨5, 2⟩ false
      ⟨0, "long", none, none⟩).toOption.join).isSome = true := by decide +kernel
  generalize tradeOf Sha256.sha256 wideBars partialParams ⟨5, 2⟩ false ⟨0, "long", none, none⟩ = r
    at hsome
  match r with
  | .ok (some t) => exact ⟨t, rfl⟩

theorem stopFirst_iff_wideBars : ∃ t, tradeOf Sha256.sha256 wideBars partialParams ⟨5, 2⟩ false
      ⟨0, "long", none, none⟩ = .ok (some t) ∧
    ("dual_touch", "stop_first_fixture") ∈ t.simulatorManifest.policies ∧
    (StopFirst wideBars partialParams ⟨0, "long", none, none⟩ t ↔
      ¬ DualTouchAfterPartial wideBars partialParams ⟨0, "long", none, none⟩) := by
  obtain ⟨t, ht⟩ := wideBars_trade
  exact ⟨t, ht, (stopFirst_iff ht).2⟩

/-- The second profit is taken on a bar that touches the break-even stop. -/
theorem second_take_beats_stop : ∃ t, tradeOf Sha256.sha256 wideBars partialParams ⟨5, 2⟩ false
      ⟨0, "long", none, none⟩ = .ok (some t) ∧
    ¬ StopFirst wideBars partialParams ⟨0, "long", none, none⟩ t := by
  obtain ⟨t, ht⟩ := wideBars_trade
  refine ⟨t, ht, fun hfirst => ?_⟩
  have hw : holdingWindow wideBars 0 (holdBarsOf partialParams) = some (2, 100) := by
    decide +kernel
  have htakes : partialTakes partialParams = some (2, 4) := by decide +kernel
  have hbars : SecondPhaseDualTouch true 100 (level 100 2 false) (level 100 2 true)
      (level 100 4 true) (barsBetween wideBars 0 2) := by
    refine ⟨[⟨0, 100, 101, 99, 100⟩], ⟨1, 101, 103, 101, 102⟩, [], ⟨2, 102, 105, 99, 101⟩, [], ?_⟩
    decide +kernel
  obtain ⟨cap, entry, hw', -, houtcome, -, hheld⟩ := describes_decidedExit ht
  obtain ⟨rfl, rfl⟩ : 2 = cap ∧ 100 = entry := by simpa [hw] using hw'
  have hdual : DualTouchAfterPartial wideBars partialParams ⟨0, "long", none, none⟩ :=
    ⟨2, 100, 2, 4, hw, htakes, hbars⟩
  obtain ⟨k, p, price, hdecided, htouch, hbefore⟩ := taken_at hw hdual
  rcases hfirst 2 100 hw k price htouch hbefore with hlt | ⟨-, -, htake, -⟩
  · rw [hheld, hdecided] at hlt
    dsimp only at hlt
    omega
  · rw [houtcome, hdecided] at htake
    exact htake rfl

end ResearchLab.Simulation
