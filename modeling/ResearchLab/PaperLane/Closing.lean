import ResearchLab.PaperLane.Observe
import ResearchLab.Simulation.Acceptance

/-!
# Closing never fails

A position that the lane holds can be closed at every positive price: the reconciliation of its
fills agrees with the net return that the lane computes from its rounded legs.
-/
namespace ResearchLab.PaperLane
open Foundation
open Simulation (Candle Fill UnitFills QuantityReconciliation returnPct direction meanPrice
  unitReconciliation unitQuantityLedger netReturn_eq reconcilePartialFills_eq
  buildTradeQuantityLedger_unit)

theorem returnPct_text {side : Side} {entry price : ℚ} (h : 0 < entry) :
    returnPct side.text entry price =
      (if side = .long then price - entry else entry - price) / entry * 100 := by
  cases side with
  | long =>
    simp only [returnPct, direction, Side.text, if_true]
    field_simp
  | short =>
    simp only [returnPct, direction, Side.text, reduceCtorEq, if_false,
      show ("short" = "long") = False by decide]
    field_simp
    ring

theorem abs_grossPct_sub_le (side : Side) {entry : ℚ} (price : ℚ) (h : 0 < entry) :
    |grossPct entry price side - returnPct side.text entry price| ≤ 1 / 2 / 10 ^ 6 := by
  rw [returnPct_text h]
  unfold grossPct
  rw [if_neg (not_le.2 h)]
  split_ifs
  · exact abs_roundTo_sub_le _ _
  · exact abs_roundTo_sub_le _ _

/-- What half the position gains at the first level. -/
def bankedAt (sig : PaperActionSignal) (entryPx : ℚ) : ℚ :=
  roundTo 4 (1 / 2 * returnPct sig.side.text entryPx (firstTp sig))

/-- The legs that a position is closed in. -/
def closingFills (sig : PaperActionSignal) (partialDone : Bool) (exitPx : ℚ) : List Fill :=
  if partialDone then [⟨1 / 2, firstTp sig, totalCostPct⟩, ⟨1 / 2, exitPx, totalCostPct⟩]
  else [⟨1, exitPx, totalCostPct⟩]

theorem unitFills_closingFills {sig : PaperActionSignal} {partialDone : Bool} {exitPx : ℚ}
    (hexit : 0 < exitPx) (hfirst : partialDone = true → 0 < firstTp sig) :
    UnitFills totalCostPct (closingFills sig partialDone exitPx) := by
  cases partialDone with
  | false => exact ⟨by simp [closingFills], by simp [closingFills], by simp [closingFills, hexit],
      by simp [closingFills], by simp [closingFills]⟩
  | true =>
    refine ⟨by simp [closingFills], ?_, ?_, by simp [closingFills], ?_⟩
    · simp [closingFills]
    · simpa [closingFills] using ⟨hfirst rfl, hexit⟩
    · simp only [closingFills, if_true, List.map_cons, List.map_nil, List.sum_cons, List.sum_nil]
      norm_num

theorem totalCostPct_nonneg : 0 ≤ totalCostPct := by
  norm_num [totalCostPct, feesBpsRoundTrip, slippageBpsRoundTrip]

/-- The mean price of the legs gains what the lane adds up of them, up to the rounding. -/
theorem abs_gross_sub_le {sig : PaperActionSignal} {entryPx : ℚ} (exitPx : ℚ) {partialDone : Bool}
    {banked : ℚ} (hentry : 0 < entryPx)
    (hbanked : partialDone = true → banked = bankedAt sig entryPx) :
    |(if partialDone then banked + 1 / 2 * grossPct entryPx exitPx sig.side
        else grossPct entryPx exitPx sig.side) -
      returnPct sig.side.text entryPx (meanPrice (closingFills sig partialDone exitPx))| ≤
        1 / 10 ^ 4 := by
  have hleg := abs_le.1 (abs_grossPct_sub_le sig.side exitPx hentry)
  cases partialDone with
  | false =>
    have hmean : meanPrice (closingFills sig false exitPx) = exitPx := by
      simp [meanPrice, closingFills]
    rw [hmean, abs_le]
    simp only [Bool.false_eq_true, if_false]
    constructor <;> linarith [hleg.1, hleg.2]
  | true =>
    have hmean : returnPct sig.side.text entryPx (meanPrice (closingFills sig true exitPx)) =
        1 / 2 * returnPct sig.side.text entryPx (firstTp sig) +
          1 / 2 * returnPct sig.side.text entryPx exitPx := by
      simp only [meanPrice, closingFills, if_true, List.map_cons, List.map_nil, List.sum_cons,
        List.sum_nil, returnPct]
      field_simp
      ring
    have hround := abs_le.1 (abs_roundTo_sub_le 4
      (1 / 2 * returnPct sig.side.text entryPx (firstTp sig)))
    rw [hbanked rfl, hmean, abs_le, bankedAt]
    simp only [if_true]
    constructor <;> linarith [hleg.1, hleg.2, hround.1, hround.2]

/-- The signal that a closing leaves. -/
def closedSignal (sig : PaperActionSignal) (v : LaneVars) (kind : LaneResult) (exitPx : ℚ) :
    PaperActionSignal :=
  let gross := if v.partialDone then v.banked + 1 / 2 * grossPct v.entryPx exitPx sig.side
    else grossPct v.entryPx exitPx sig.side
  { sig with
    status := .closedPaper
    outcome :=
      { v.state with
        openIndex := none
        lifecycleSchema := some lifecycleSchema
        result := some kind
        entry := some (roundTo 8 v.entryPx)
        exit := some (roundTo 8 exitPx)
        grossPct := some (roundTo 3 gross)
        netPct := some (roundTo 3 (netPct gross))
        feesBpsRoundTrip := some feesBpsRoundTrip
        slippageBpsRoundTrip := some slippageBpsRoundTrip
        costLedger := some (Simulation.buildCostLedger
          { feesBps := feesBpsRoundTrip, slippageBps := slippageBpsRoundTrip })
        quantityLedger := some (unitQuantityLedger
          (if v.partialDone then [1 / 2, 1 / 2] else [1]))
        fillReconciliation := some (unitReconciliation v.entryPx sig.side.text totalCostPct
          (closingFills sig v.partialDone exitPx))
        bankedPct := some (roundTo 4 v.banked)
        partialDone := some v.partialDone
        mfePct := some (roundTo 3 v.mfe)
        maePct := some (roundTo 3 v.mae)
        barsHeld := some v.barsHeld
        reachedTp1 := some (v.partialDone || kind = .take) } }

theorem close_eq {sig : PaperActionSignal} {v : LaneVars} (kind : LaneResult) {exitPx : ℚ}
    (hentry : 0 < v.entryPx) (hexit : 0 < exitPx)
    (hfirst : v.partialDone = true → 0 < firstTp sig ∧ v.banked = bankedAt sig v.entryPx) :
    close sig v kind exitPx = .ok (closedSignal sig v kind exitPx) := by
  have hfills : (((if v.partialDone then [1 / 2, 1 / 2] else [1]).zip
      (if v.partialDone then [firstTp sig, exitPx] else [exitPx])).map
        fun leg => (⟨leg.1, leg.2, totalCostPct⟩ : Fill)) =
      closingFills sig v.partialDone exitPx := by
    cases v.partialDone <;> rfl
  have hside : sig.side.text = "long" ∨ sig.side.text = "short" := by
    cases sig.side <;> simp [Side.text]
  have hreconcile := reconcilePartialFills_eq hentry hside totalCostPct_nonneg
    (unitFills_closingFills hexit fun h => (hfirst h).1)
  have hquantity : Simulation.buildTradeQuantityLedger 1
      (if v.partialDone then [1 / 2, 1 / 2] else [1]) =
        .ok (unitQuantityLedger (if v.partialDone then [1 / 2, 1 / 2] else [1])) := by
    refine buildTradeQuantityLedger_unit (fun leg hleg => ?_) ?_
    · split_ifs at hleg <;> simp at hleg <;> rw [hleg] <;> norm_num
    · split_ifs <;> norm_num
  have hgross := abs_le.1 (abs_gross_sub_le exitPx hentry fun h => (hfirst h).2)
  have hmatch : ∀ gross : ℚ,
      -(1 / 10 ^ 4) ≤ gross - returnPct sig.side.text v.entryPx
        (meanPrice (closingFills sig v.partialDone exitPx)) →
      gross - returnPct sig.side.text v.entryPx
        (meanPrice (closingFills sig v.partialDone exitPx)) ≤ 1 / 10 ^ 4 →
      ¬ 1 / 10 ^ 3 < |(unitReconciliation v.entryPx sig.side.text totalCostPct
        (closingFills sig v.partialDone exitPx)).netReturnPct.getD 0 - netPct gross| := by
    intro gross hlow hhigh
    simp only [unitReconciliation, Option.getD_some, netReturn_eq hentry, not_lt, netPct]
    have h₁ := abs_le.1 (abs_roundTo_sub_le 10 (returnPct sig.side.text v.entryPx
      (meanPrice (closingFills sig v.partialDone exitPx)) - totalCostPct))
    have h₂ := abs_le.1 (abs_roundTo_sub_le 6 (gross - totalCostPct))
    rw [abs_le]
    constructor <;> linarith [h₁.1, h₁.2, h₂.1, h₂.2]
  simp only [close, hfills, hreconcile, hquantity, bind, Except.bind,
    if_neg (hmatch _ hgross.1 hgross.2)]
  rfl

end ResearchLab.PaperLane
