import Mathlib
import ResearchLab.Foundation.Checks
import ResearchLab.Foundation.Sha256
import ResearchLab.Simulation.Batched
import ResearchLab.Simulation.Reference

/-!
# The simulators agree

On the parameters that the batched simulator supports it returns the trades of
`simulate_trades`, and the reference simulator decides the same exits.
-/
namespace ResearchLab.Simulation
open Foundation

variable {sha256 : String → String} {candles : List Candle} {params : Params} {costs : Costs}

/-- A loop in which no signal raises. -/
theorem tradesOf_eq_ok {α : Type} {trade : Signal → Except String (Option α)}
    {f : Signal → Option α} {signals : List Signal}
    (h : ∀ sig ∈ signals, trade sig = .ok (f sig)) :
    tradesOf trade signals = .ok (signals.filterMap f) := by
  induction signals with
  | nil => rfl
  | cons sig rest ih =>
    have hrest := ih fun s hs => h s (List.mem_cons_of_mem _ hs)
    simp only [tradesOf, h sig List.mem_cons_self]
    cases hf : f sig with
    | none => simpa [hf] using hrest
    | some t => simp [hf, hrest, Except.map]

/-- The trade that a signal gets in the baseline, if it is not skipped. -/
def decidedTrade (sha256 : String → String) (candles : List Candle) (params : Params)
    (costs : Costs) (sig : Signal) : Option Trade :=
  (holdingWindow candles sig.idx (params.holdBars.getD 5)).map fun (cap, entry) =>
    finalTrade sha256 candles sig.idx sig.side entry
      (baselineExit candles sig.idx cap entry sig.side (params.stopPct.getD 0)
        (params.takePct.getD 0)) sig costs

theorem baselineTrade_eq (sig : Signal) :
    baselineTrade sha256 candles (params.holdBars.getD 5) (params.stopPct.getD 0)
        (params.takePct.getD 0) costs false sig =
      .ok (decidedTrade sha256 candles params costs sig) := by
  rw [baselineTrade, decidedTrade]
  cases holdingWindow candles sig.idx (params.holdBars.getD 5) with
  | none => rfl
  | some w => simp [finalizeTrade_eq, Except.map]

theorem simulateTrades_baseline (hmode : params.exitMode = none) (signals : List Signal) :
    simulateTrades sha256 candles signals params costs false =
      .ok (signals.filterMap (decidedTrade sha256 candles params costs)) := by
  have hbaseline : exitModeOf params = "baseline" := by
    rw [exitModeOf, hmode]
    decide +kernel
  refine tradesOf_eq_ok fun sig _ => ?_
  rw [tradeOf, hbaseline]
  exact baselineTrade_eq sig

/-- The batched simulator decides and builds the trade of the baseline. -/
theorem simulateTradesBatched_eq {signals : List Signal}
    (hside : ∀ sig ∈ signals, sig.side = "long" ∨ sig.side = "short") :
    simulateTradesBatched sha256 candles signals params costs =
      .ok (signals.filterMap (decidedTrade sha256 candles params costs)) := by
  set setup := hostSetup candles signals (params.holdBars.getD 5) (params.stopPct.getD 0)
    (params.takePct.getD 0) with hsetup
  let touch : HostRow → Touch :=
    firstTouch (candles.map Candle.high) (candles.map Candle.low) (params.holdBars.getD 5)
  let build : HostRow × Touch → Trade := fun p =>
    finalTrade sha256 candles p.1.idx (if p.1.isLong then "long" else "short") p.1.entry
      (touchedExit candles p.1 p.2) p.1.sig costs
  have hbuilt : simulateTradesBatched sha256 candles signals params costs =
      .ok (setup.map fun row => build (row, touch row)) := by
    have hzip : ∀ rows : List HostRow, rows.zip (firstTouchBatched (candles.map Candle.high)
        (candles.map Candle.low) (params.holdBars.getD 5) rows) =
          rows.map fun row => (row, touch row) :=
      fun _ => List.map_prod_left_eq_zip.symm
    simp only [simulateTradesBatched, ← hsetup]
    cases setup with
    | nil => rfl
    | cons row rows =>
      simp only [hzip]
      rw [mapM_eq_ok (g := build) fun p _ => finalizeTrade_eq .., List.map_map]
      rfl
  have htrade : ∀ sig ∈ signals, (hostRow candles (params.holdBars.getD 5)
      (params.stopPct.getD 0) (params.takePct.getD 0) sig).map (fun row => build (row, touch row)) =
        decidedTrade sha256 candles params costs sig := by
    intro sig hsig
    cases hrow : hostRow candles (params.holdBars.getD 5) (params.stopPct.getD 0)
        (params.takePct.getD 0) sig with
    | none =>
      have hskip : holdingWindow candles sig.idx (params.holdBars.getD 5) = none := by
        rw [hostRow_eq] at hrow
        exact Option.map_eq_none_iff.1 hrow
      simp [decidedTrade, hskip]
    | some row =>
      obtain ⟨hw, hsigEq, hidx, hlong⟩ := hostRow_eq_some hrow
      have hname : (if row.isLong then "long" else "short") = sig.side := by
        rcases hside sig hsig with hs | hs <;> simp [hlong, isLong, hs]
      simp only [decidedTrade, hw, Option.map_some, build, touch, hname,
        touchedExit_firstTouch hrow, hidx, hsigEq]
  rw [hbuilt, hsetup, hostSetup, List.map_filterMap]
  congr 1
  exact List.filterMap_congr htrade

/-! ## The reference -/

/-- Every enabled level of every signal that is not skipped is a price other than 0. -/
def LevelsNonzero (candles : List Candle) (signals : List Signal) (params : Params) : Prop :=
  ∀ sig ∈ signals, ∀ cap entry,
    holdingWindow candles sig.idx (params.holdBars.getD 5) = some (cap, entry) →
      level entry (params.stopPct.getD 0) (!isLong sig.side) ≠ some 0 ∧
        level entry (params.takePct.getD 0) (isLong sig.side) ≠ some 0

/-- The row and the trade agree in side, outcome, exit bar and costs, and the trade is the one
that the exit of the row, at its unrounded price, gives. -/
def Agrees (sha256 : String → String) (candles : List Candle) (costs : Costs)
    (row : ReferenceRow) (t : Trade) : Prop :=
  row.side = t.side ∧ row.outcome = t.outcome ∧ row.exitIdx = row.entryIdx + t.barsHeld ∧
    row.costLedger = t.costLedger ∧
    ∃ sig, t = finalTrade sha256 candles row.entryIdx row.side row.entry
      ⟨row.exit, row.outcome, row.exitIdx⟩ sig costs

theorem level_eq (entry pct : ℚ) (up : Bool) :
    level entry pct up =
      if 0 < pct then some (entry * if up then 1 + pct / 100 else 1 - pct / 100) else none := by
  unfold level
  rcases lt_or_ge 0 pct with h | h
  · rw [if_neg (not_le.2 h), if_pos h]
    cases up <;> rfl
  · rw [if_pos h, if_neg (not_lt.2 h)]

/-- Where no enabled level is 0 the two scans test the same levels. -/
theorem referenceScanner_eq {long : Bool} {entry stopPct takePct : ℚ}
    (hstop : level entry stopPct (!long) ≠ some 0) (htake : level entry takePct long ≠ some 0) :
    referenceScanner long entry stopPct takePct =
      baselineScanner long (level entry stopPct !long) (level entry takePct long) := by
  have htruthy : ∀ l : Option ℚ, l ≠ some 0 → truthy l = l := by
    intro l hl
    cases l with
    | none => rfl
    | some x => simpa [truthy, Option.filter_some] using hl
  have hpick : ∀ (c : Prop) [Decidable c] (price : ℚ) (p : ℚ → Bool),
      (if c then some price else none).filter p = if c ∧ p price then some price else none := by
    intro c _ price p
    by_cases hc : c <;> simp [hc, Option.filter_some]
  simp only [referenceScanner, baselineScanner, htruthy _ hstop, htruthy _ htake]
  congr 1
  funext _ bar
  rw [level_eq, level_eq, hpick, hpick]
  cases long <;> simp only [Bool.not_true, Bool.not_false, Bool.false_eq_true, if_true, if_false] <;>
    split_ifs <;> rfl

/-- The row that the reference decides for a signal, if it is not skipped. -/
def decidedRow (sha256 : String → String) (candles : List Candle) (params : Params)
    (costs : Costs) (sig : Signal) : Option ReferenceRow :=
  (holdingWindow candles sig.idx (params.holdBars.getD 5)).map fun w =>
    exitRow sha256 candles costs sig w.2 (referenceExit candles sig.idx w.1 w.2 sig.side
      (params.stopPct.getD 0) (params.takePct.getD 0)) (unitQuantityLedger [1])

/-- The reference skips the signals of the loop, and has the window of the loop. -/
theorem referenceRow_eq (sig : Signal) : referenceRow sha256 candles params costs sig =
    .ok (decidedRow sha256 candles params costs sig) := by
  simp only [referenceRow, decidedRow, holdingWindow, buildTradeQuantityLedger_one]
  split_ifs <;> rfl

/-- A row and a trade decided for one signal agree, and both skip the same signals. -/
theorem decidedRow_agrees {sig : Signal} (hlevels : ∀ cap entry,
    holdingWindow candles sig.idx (params.holdBars.getD 5) = some (cap, entry) →
      level entry (params.stopPct.getD 0) (!isLong sig.side) ≠ some 0 ∧
        level entry (params.takePct.getD 0) (isLong sig.side) ≠ some 0) :
    Option.Rel (Agrees sha256 candles costs) (decidedRow sha256 candles params costs sig)
      (decidedTrade sha256 candles params costs sig) := by
  rw [decidedRow, decidedTrade]
  cases hw : holdingWindow candles sig.idx (params.holdBars.getD 5) with
  | none => exact .none
  | some w =>
    obtain ⟨cap, entry⟩ := w
    obtain ⟨hstop, htake⟩ := hlevels cap entry hw
    have hexit : referenceExit candles sig.idx cap entry sig.side (params.stopPct.getD 0)
        (params.takePct.getD 0) = baselineExit candles sig.idx cap entry sig.side
          (params.stopPct.getD 0) (params.takePct.getD 0) := by
      rw [referenceExit, referenceScanner_eq hstop htake]
      rfl
    simp only [Option.map_some, hexit]
    refine .some ⟨rfl, rfl, ?_, rfl, sig, rfl⟩
    exact (Nat.add_sub_cancel' (exitOf_idx (holdingWindow_eq_some hw).1)).symm

theorem forall₂_filterMap {α β γ : Type} {R : β → γ → Prop} {f : α → Option β}
    {g : α → Option γ} {l : List α} (h : ∀ x ∈ l, Option.Rel R (f x) (g x)) :
    List.Forall₂ R (l.filterMap f) (l.filterMap g) := by
  induction l with
  | nil => exact .nil
  | cons x l ih =>
    have hrest := ih fun y hy => h y (List.mem_cons_of_mem _ hy)
    have hx := h x List.mem_cons_self
    cases hf : f x with
    | none =>
      have hg : g x = none := by
        rw [hf] at hx
        cases hx' : g x with
        | none => rfl
        | some c => rw [hx'] at hx; cases hx
      rwa [List.filterMap_cons_none hf, List.filterMap_cons_none hg]
    | some b =>
      cases hg : g x with
      | none => rw [hf, hg] at hx; cases hx
      | some c =>
        rw [hf, hg] at hx
        rw [List.filterMap_cons_some hf, List.filterMap_cons_some hg]
        cases hx with
        | some hbc => exact .cons hbc hrest

/-- On supported parameters the batched simulator returns the very trades of `simulate_trades`,
and where no enabled level is 0 the reference simulator agrees with them, signal by signal. -/
theorem simulators_agree (sha256 : String → String) (candles : List Candle)
    (signals : List Signal) (params : Params) (costs : Costs)
    (hside : ∀ sig ∈ signals, sig.side = "long" ∨ sig.side = "short")
    (hsupported : ∀ key ∈ unsupportedExitParams, params.has key = false) :
    ∃ trades, simulateTrades sha256 candles signals params costs false = .ok trades ∧
      simulateTradesBatched sha256 candles signals params costs = .ok trades ∧
      (LevelsNonzero candles signals params →
        ∃ rows, simulateReferenceFixed sha256 candles signals params costs = .ok rows ∧
          List.Forall₂ (Agrees sha256 candles costs) rows trades) := by
  have hmode : params.exitMode = none := by
    have := hsupported "exit_mode" (by decide)
    simpa [Params.has] using this
  refine ⟨_, simulateTrades_baseline hmode signals, simulateTradesBatched_eq hside,
    fun hlevels => ⟨_, tradesOf_eq_ok fun sig _ => referenceRow_eq sig,
      forall₂_filterMap fun sig hsig => decidedRow_agrees (hlevels sig hsig)⟩⟩

/-- Three bars: the second touches the stop of a long and the take of a short. -/
def dippingBars : List Candle :=
  [⟨0, 100, 100, 100, 100⟩, ⟨1, 100, 101, 97, 98⟩, ⟨2, 98, 99, 98, 99⟩]

theorem simulators_agree_dippingBars :
    ∃ trades, simulateTrades Sha256.sha256 dippingBars [⟨0, "long", none, none⟩, ⟨0, "short", none, none⟩]
        { holdBars := some 2, stopPct := some 2, takePct := some 2 } ⟨5, 2⟩ false = .ok trades ∧
      simulateTradesBatched Sha256.sha256 dippingBars
        [⟨0, "long", none, none⟩, ⟨0, "short", none, none⟩]
        { holdBars := some 2, stopPct := some 2, takePct := some 2 } ⟨5, 2⟩ = .ok trades ∧
      ∃ rows, simulateReferenceFixed Sha256.sha256 dippingBars
          [⟨0, "long", none, none⟩, ⟨0, "short", none, none⟩]
          { holdBars := some 2, stopPct := some 2, takePct := some 2 } ⟨5, 2⟩ = .ok rows ∧
        List.Forall₂ (Agrees Sha256.sha256 dippingBars ⟨5, 2⟩) rows trades := by
  obtain ⟨trades, hcpu, hgpu, hreference⟩ := simulators_agree Sha256.sha256 dippingBars
    [⟨0, "long", none, none⟩, ⟨0, "short", none, none⟩]
    { holdBars := some 2, stopPct := some 2, takePct := some 2 } ⟨5, 2⟩ (by decide) (by decide)
  refine ⟨trades, hcpu, hgpu, hreference ?_⟩
  intro sig hsig cap entry hw
  have hentry : entry = 100 := by
    have hidx : sig.idx = 0 := by
      rcases List.mem_pair.1 hsig with rfl | rfl <;> rfl
    rw [hidx] at hw
    have : holdingWindow dippingBars 0 2 = some (2, 100) := by decide +kernel
    simp_all
  subst hentry
  rcases List.mem_pair.1 hsig with rfl | rfl <;> decide +kernel

end ResearchLab.Simulation
