import Mathlib
import ResearchLab.Simulation.Causality

/-!
# What a trade is made of

Every trade of `simulate_trades` is built of a window and of the exit that the scan of its mode
decides in it.
-/
namespace ResearchLab.Simulation
open Foundation

/-- The parameters name a mode other than the baseline. -/
def IsDynamic (params : Params) : Prop :=
  exitModeOf params ≠ "" ∧ exitModeOf params ≠ "baseline"

instance (params : Params) : Decidable (IsDynamic params) := inferInstanceAs (Decidable (_ ∧ _))

def dynamicMode (params : Params) : DynamicMode := dynamicModeParams params (exitModeOf params)

/-- The percentages of the two take-profits, in a partial mode. -/
@[irreducible] def partialTakes (params : Params) : Option (ℚ × ℚ) :=
  if IsDynamic params then
    match (dynamicMode params).rule with
    | .partialTake tp1Pct tp2Pct => some (tp1Pct, tp2Pct)
    | _ => none
  else none

/-- The bars to hold in the mode of the parameters. -/
def holdBarsOf (params : Params) : ℤ :=
  if IsDynamic params then (dynamicMode params).holdBars else params.holdBars.getD 5

/-- The start of a partial scan. -/
def partialStart (entry stopPct : ℚ) (long : Bool) : PartialState :=
  ⟨false, level entry stopPct !long⟩

/-- The scan of a partial mode. -/
def partialScan (long : Bool) (entry tp1Pct tp2Pct : ℚ) :
    Scanner PartialState Candle (ℚ × Outcome) :=
  partialScanner long entry (level entry tp1Pct long) (level entry tp2Pct long)

/-- The exit that the scan of the mode decides. -/
def decidedExit (candles : List Candle) (params : Params) (sig : Signal) (cap : ℕ) (entry : ℚ) :
    Exit :=
  let stopPct := params.stopPct.getD 0
  let takePct := params.takePct.getD 0
  match partialTakes params with
  | some (tp1Pct, tp2Pct) =>
      exitOf candles sig.idx cap ((partialScan (isLong sig.side) entry tp1Pct tp2Pct).run
        (partialStart entry stopPct (isLong sig.side)) (barsBetween candles sig.idx cap))
  | none =>
      if IsDynamic params then
        scanDynamicExit candles sig.idx cap entry sig.side stopPct takePct (dynamicMode params).rule
      else baselineExit candles sig.idx cap entry sig.side stopPct takePct

section
variable {sha256 : String → String} {candles : List Candle} {params : Params} {costs : Costs}
  {requireCompleteHorizon : Bool} {sig : Signal} {t : Trade}

theorem tradeOf_eq_ite : tradeOf sha256 candles params costs requireCompleteHorizon sig =
    if IsDynamic params then
      dynamicTrade sha256 candles (dynamicMode params) (params.stopPct.getD 0)
        (params.takePct.getD 0) costs requireCompleteHorizon sig
    else baselineTrade sha256 candles (params.holdBars.getD 5) (params.stopPct.getD 0)
      (params.takePct.getD 0) costs requireCompleteHorizon sig := by
  unfold tradeOf
  by_cases hmode : exitModeOf params ≠ "" ∧ exitModeOf params ≠ "baseline"
  · rw [if_pos hmode, if_pos (show IsDynamic params from hmode)]
    rfl
  · rw [if_neg hmode, if_neg (show ¬ IsDynamic params from hmode)]

/-- A signal that is not skipped gets the final trade of its exit or binds the partial trade. -/
theorem tradeOf_eq : tradeOf sha256 candles params costs requireCompleteHorizon sig =
    match holdingWindow candles sig.idx (holdBarsOf params) with
    | none => .ok none
    | some (cap, entry) =>
        if requireCompleteHorizon ∧ cutOff candles sig.idx (holdBarsOf params)
            (decidedExit candles params sig cap entry).outcome then .ok none
        else match partialTakes params with
          | some (tp1Pct, tp2Pct) =>
              (bindPartialTrade sha256 (partialDynamicTrade candles sig.idx cap entry sig.side
                (params.stopPct.getD 0) tp1Pct tp2Pct sig costs.pct) entry sig.side costs.feesBps
                  costs.slippageBps costs.pct).map some
          | none => .ok (some (finalTrade sha256 candles sig.idx sig.side entry
              (decidedExit candles params sig cap entry) sig costs)) := by
  rw [tradeOf_eq_ite]
  by_cases hmode : IsDynamic params
  · simp only [if_pos hmode, holdBarsOf, dynamicTrade]
    cases holdingWindow candles sig.idx (dynamicMode params).holdBars with
    | none => rfl
    | some w =>
      cases hrule : (dynamicMode params).rule <;>
        simp only [decidedExit, partialTakes, if_pos hmode, hrule, finalizeTrade_eq] <;> rfl
  · have hnone : partialTakes params = none := by rw [partialTakes, if_neg hmode]
    simp only [if_neg hmode, holdBarsOf, baselineTrade, decidedExit, hnone, finalizeTrade_eq]
    rfl

theorem tradeOf_eq_some
    (ht : tradeOf sha256 candles params costs requireCompleteHorizon sig = .ok (some t)) :
    ∃ cap entry, holdingWindow candles sig.idx (holdBarsOf params) = some (cap, entry) ∧
      ((partialTakes params = none ∧ t = finalTrade sha256 candles sig.idx sig.side entry
          (decidedExit candles params sig cap entry) sig costs) ∨
        ∃ tp1Pct tp2Pct, partialTakes params = some (tp1Pct, tp2Pct) ∧
          bindPartialTrade sha256 (partialDynamicTrade candles sig.idx cap entry sig.side
            (params.stopPct.getD 0) tp1Pct tp2Pct sig costs.pct) entry sig.side costs.feesBps
              costs.slippageBps costs.pct = .ok t) := by
  rw [tradeOf_eq] at ht
  cases hw : holdingWindow candles sig.idx (holdBarsOf params) with
  | none => simp [hw] at ht
  | some w =>
    obtain ⟨cap, entry⟩ := w
    refine ⟨cap, entry, rfl, ?_⟩
    simp only [hw] at ht
    split_ifs at ht with hcut
    · cases ht
    cases htwo : partialTakes params with
    | none =>
      simp only [htwo] at ht
      exact .inl ⟨rfl, (Option.some.inj (Except.ok.inj ht)).symm⟩
    | some takes =>
      obtain ⟨tp1Pct, tp2Pct⟩ := takes
      simp only [htwo] at ht
      refine .inr ⟨tp1Pct, tp2Pct, rfl, ?_⟩
      cases hbind : bindPartialTrade sha256 (partialDynamicTrade candles sig.idx cap entry sig.side
          (params.stopPct.getD 0) tp1Pct tp2Pct sig costs.pct) entry sig.side costs.feesBps
            costs.slippageBps costs.pct with
      | error e => simp [hbind, Except.map] at ht
      | ok t' =>
        rw [hbind] at ht
        rw [Option.some.inj (Except.ok.inj ht)]

theorem bindPartialTrade_manifest {trade : TradeCore} {entry feesBps slippageBps costPct : ℚ}
    {side : String}
    (ht : bindPartialTrade sha256 trade entry side feesBps slippageBps costPct = .ok t) :
    t.simulatorManifest = legacyFixtureManifest sha256 := by
  obtain ⟨reconciliation, -, ht⟩ := bind_eq_ok.1 ht
  by_cases hbad : 1 / 10 ^ 3 < |reconciliation.netReturnPct.getD 0 - trade.netPct|
  · rw [if_pos hbad] at ht
    cases ht
  rw [if_neg hbad] at ht
  obtain ⟨quantity, -, ht⟩ := bind_eq_ok.1 ht
  rw [← Except.ok.inj ht]

/-- A trade carries the manifest of the fixture and describes the exit of its mode. -/
theorem describes_decidedExit
    (ht : tradeOf sha256 candles params costs requireCompleteHorizon sig = .ok (some t)) :
    ∃ cap entry, holdingWindow candles sig.idx (holdBarsOf params) = some (cap, entry) ∧
      t.simulatorManifest = legacyFixtureManifest sha256 ∧
      t.outcome = (decidedExit candles params sig cap entry).outcome ∧
      t.exit = roundTo 10 (decidedExit candles params sig cap entry).price ∧
      t.barsHeld = (decidedExit candles params sig cap entry).idx - sig.idx := by
  obtain ⟨cap, entry, hw, ⟨-, rfl⟩ | ⟨tp1Pct, tp2Pct, htwo, hbind⟩⟩ := tradeOf_eq_some ht
  · refine ⟨cap, entry, hw, ?_⟩
    simp only [finalTrade, describeTrade, and_self]
  · refine ⟨cap, entry, hw, bindPartialTrade_manifest hbind, ?_⟩
    have hcore := bindPartialTrade_core hbind
    simp only [decidedExit, htwo, hcore, partialDynamicTrade, describeTrade, partialScan,
      partialStart, and_self]

end

end ResearchLab.Simulation
