import Mathlib
import ResearchLab.Simulation.ExitRange
import ResearchLab.Simulation.StopFirst
import ResearchLab.Simulation.Validation

/-!
# Which trades the validator accepts

Producing a trade never raises. The validator recomputes its return from prices rounded to ten
decimals, or from amounts rounded to twelve; it accepts every trade of a window whose prices are
large enough for these roundings.
-/
namespace ResearchLab.Simulation
open Foundation

/-! ## The checks of every trade -/

section
variable {sha256 : String → String} {candles : List Candle} {costs : Costs}

/-- The ledger of the costs has its canonical names and adds up. -/
theorem checkCosts_ledger : checkCosts (legacyFixtureManifest sha256) costs.ledger = .ok () := by
  have hnames : (costs.ledger.componentsPct.map Prod.fst).toFinset = standardNames.toFinset := rfl
  have hstatus : costs.ledger.attributionStatus = "declared_assumptions_not_observed" := rfl
  have hzero : roundTo 10 (0 / 100) = 0 ∧ roundTo 10 0 = 0 := by decide +kernel
  have hcomponents : ¬ ∃ name ∈ ["spread", "impact", "funding"],
      component costs.ledger name ≠ 0 := by
    simp [component, Costs.ledger, buildCostLedger, componentsPct, List.lookup, hzero]
  have hsum : ¬ 1 / 10 ^ 9 < |(costs.ledger.componentsPct.map Prod.snd).sum -
      costs.ledger.totalPct| := by
    have h := abs_roundTo_sub_le 10 (costs.ledger.componentsPct.map Prod.snd).sum
    rw [abs_sub_comm] at h
    exact not_lt.2 (h.trans (by norm_num))
  simp only [checkCosts, checkCostNames, hnames, hstatus, hcomponents, and_false, if_true, if_false,
    ne_eq, not_true_eq_false, hsum]
  rfl

/-- The manifest part of the validation of a trade of the fixture. -/
theorem validate_trade_eq {t : Trade} (hmanifest : t.simulatorManifest = legacyFixtureManifest sha256)
    (hmodel : t.simulatorModelId = (legacyFixtureManifest sha256).simulatorModelId)
    (hdims : t.unsupportedSimulatorDimensions =
      (legacyFixtureManifest sha256).unsupportedDimensions)
    (hcosts : t.costLedger = costs.ledger) :
    validateTradeContract sha256 t (legacyFixtureManifest sha256) = .ok () ↔
      checkQuantities t.quantityLedger = .ok () ∧
        ∃ gross, grossReturn t = .ok gross ∧ checkReturn t gross = .ok () := by
  simp only [validateTradeContract, hmanifest, validate_legacyFixtureManifest, hmodel, hdims,
    hcosts, bind_eq_ok, check_eq_ok]
  constructor
  · rintro ⟨_, -, -, -, -, _, -, _, hquantity, gross, hgross, hreturn⟩
    exact ⟨hquantity, gross, hgross, hreturn⟩
  · rintro ⟨hquantity, gross, hgross, hreturn⟩
    exact ⟨_, rfl, by simp, by simp, by simp, (), checkCosts_ledger, (), hquantity, gross, hgross,
      hreturn⟩

/-- A return is accepted when declared gross and net return lie within the tolerance. -/
theorem checkReturn_eq_ok {t : Trade} {gross : ℚ} : checkReturn t gross = .ok () ↔
    (∀ declared, t.grossPct = some declared → |declared - gross| ≤ 1 / 10 ^ 3) ∧
      |gross - t.costLedger.totalPct - t.netPct| ≤ 1 / 10 ^ 3 := by
  simp only [checkReturn, check_eq_ok, Option.mem_def, not_exists, not_and, not_lt, and_true]

theorem checkQuantities_unit {legs : List ℚ} (hpos : ∀ leg ∈ legs, 0 < leg)
    (hsum : legs.sum = 1) : checkQuantities (unitQuantityLedger legs) = .ok () := by
  have hlegs : ¬ ∃ leg ∈ legs, leg ≤ 0 := by
    rintro ⟨leg, hleg, h⟩
    exact absurd (hpos leg hleg) (not_lt.2 h)
  simp only [checkQuantities, unitQuantityLedger, hlegs, hsum]
  norm_num

/-! ## Trades with one exit -/

/-- Entry and exit survive the rounding to ten decimals, and the return recomputed from the
rounded prices lies within 0.001 of the declared one. -/
def PricesReconcile (side : String) (entry exit : ℚ) (costs : Costs) : Prop :=
  0 < roundTo 10 entry ∧ 0 < roundTo 10 exit ∧
    |returnPct side (roundTo 10 entry) (roundTo 10 exit) - costs.ledger.totalPct -
      roundTo 4 (returnPct side entry exit - costs.pct * 100)| ≤ 1 / 10 ^ 3

instance (side : String) (entry exit : ℚ) (costs : Costs) :
    Decidable (PricesReconcile side entry exit costs) := inferInstanceAs (Decidable (_ ∧ _))

theorem validate_finalTrade_iff {idx : ℕ} {sig : Signal} {entry : ℚ} {exit : Exit}
    (hside : sig.side = "long" ∨ sig.side = "short") :
    validateTradeContract sha256 (finalTrade sha256 candles idx sig.side entry exit sig costs)
        (legacyFixtureManifest sha256) = .ok () ↔
      PricesReconcile sig.side entry exit.price costs := by
  rw [validate_trade_eq rfl rfl rfl rfl]
  set t := finalTrade sha256 candles idx sig.side entry exit sig costs with ht
  have hquantity : checkQuantities t.quantityLedger = .ok () := by
    exact checkQuantities_unit (by simp) (by simp)
  have hfraction : ¬ 0 < t.partialExitFraction.getD 0 := by
    simp [ht, finalTrade, describeTrade]
  have hfills : t.fillReconciliation = none := rfl
  have hevidence : grossReturn t = checkPrices t := by
    simp only [grossReturn, hfills, if_neg hfraction]
  have hprices : ∀ gross, checkPrices t = .ok gross ↔
      0 < roundTo 10 entry ∧ 0 < roundTo 10 exit.price ∧
        returnPct sig.side (roundTo 10 entry) (roundTo 10 exit.price) = gross := by
    intro gross
    have hentry : t.entry = roundTo 10 entry := rfl
    have hexit : t.exit = roundTo 10 exit.price := rfl
    have hname : t.side = sig.side := rfl
    simp only [checkPrices, hentry, hexit, hname, if_pos hside, check_eq_ok, not_or, not_le,
      Except.ok.injEq, and_assoc]
  have hgross : t.grossPct = none := rfl
  have hnet : t.netPct = roundTo 4 (returnPct sig.side entry exit.price - costs.pct * 100) := rfl
  have htotal : t.costLedger.totalPct = costs.ledger.totalPct := rfl
  simp only [hquantity, hevidence, hprices, checkReturn_eq_ok, hgross, hnet, htotal,
    PricesReconcile]
  constructor
  · rintro ⟨-, gross, ⟨h₁, h₂, rfl⟩, -, h₃⟩
    exact ⟨h₁, h₂, h₃⟩
  · rintro ⟨h₁, h₂, h₃⟩
    exact ⟨trivial, _, ⟨h₁, h₂, rfl⟩, by simp, h₃⟩

/-- A quotient moves little under the rounding of both numbers, where the divisor is large. -/
theorem abs_div_sub_div_le {a a' b b' ε K : ℚ} (hb : 0 < b) (ha : |a' - a| ≤ ε)
    (hb' : |b' - b| ≤ ε) (hsmall : ε ≤ b / 10 ^ 5) (hK : b + |a| ≤ K * b ^ 2) :
    |a' / b' - a / b| ≤ ε * K * (10 ^ 5 / (10 ^ 5 - 1)) := by
  have hε : 0 ≤ ε := (abs_nonneg _).trans ha
  have hle : (1 - 1 / 10 ^ 5) * b ≤ b' := by linarith [(abs_le.1 hb').1]
  have hpos : 0 < b' := lt_of_lt_of_le (by positivity) hle
  have hK' : 0 ≤ K := by
    by_contra hneg
    have hlt : K * b ^ 2 < 0 := mul_neg_of_neg_of_pos (not_le.1 hneg) (by positivity)
    linarith [abs_nonneg a]
  have hsplit : a' / b' - a / b = ((a' - a) * b - a * (b' - b)) / (b' * b) := by
    field_simp
    ring
  have hnumerator : |(a' - a) * b - a * (b' - b)| ≤ ε * (b + |a|) := by
    calc |(a' - a) * b - a * (b' - b)|
        ≤ |(a' - a) * b| + |a * (b' - b)| := abs_sub _ _
      _ = |a' - a| * b + |a| * |b' - b| := by rw [abs_mul, abs_mul, abs_of_pos hb]
      _ ≤ ε * b + |a| * ε := by gcongr
      _ = ε * (b + |a|) := by ring
  rw [hsplit, abs_div, abs_of_pos (mul_pos hpos hb), div_le_iff₀ (mul_pos hpos hb)]
  calc |(a' - a) * b - a * (b' - b)|
      ≤ ε * (K * b ^ 2) := hnumerator.trans (by gcongr)
    _ = ε * K * (10 ^ 5 / (10 ^ 5 - 1)) * ((1 - 1 / 10 ^ 5) * b * b) := by ring
    _ ≤ ε * K * (10 ^ 5 / (10 ^ 5 - 1)) * (b' * b) := by gcongr

theorem abs_direction (side : String) : |direction side| = 1 := by
  unfold direction
  split_ifs <;> norm_num

/-- The ledger rounds the fees and the slippage, and nothing else. -/
theorem Costs.abs_ledger_sub_le (c : Costs) :
    |c.ledger.totalPct - c.pct * 100| ≤ 1 / 10 ^ 10 := by
  have htotal : c.ledger.totalPct = roundTo 10 (c.feesBps / 100) + roundTo 10 (c.slippageBps / 100) := by
    have hsum : ((componentsPct { feesBps := c.feesBps, slippageBps := c.slippageBps }).map
        Prod.snd).sum = roundTo 10 (c.feesBps / 100) + roundTo 10 (c.slippageBps / 100) := by
      simp [componentsPct]
    rw [Costs.ledger, buildCostLedger, hsum, roundTo_add (roundTo_roundTo _ _) (roundTo_roundTo _ _)]
  have hfees := abs_le.1 (abs_roundTo_sub_le 10 (c.feesBps / 100))
  have hslippage := abs_le.1 (abs_roundTo_sub_le 10 (c.slippageBps / 100))
  have hpct : c.pct * 100 = c.feesBps / 100 + c.slippageBps / 100 := by
    rw [Costs.pct]
    ring
  rw [htotal, hpct, abs_le]
  constructor <;> linarith

/-- An entry that a price leaves so much room is itself not small. -/
theorem entry_ge {entry price : ℚ} (hentry : 0 < entry) (hprice : 0 < price)
    (hroom : entry + price ≤ 189000 * entry ^ 2) : 1 / 189000 ≤ entry := by
  have h : entry * 1 ≤ entry * (189000 * entry) := by
    rw [mul_one]
    linarith
  linarith [le_of_mul_le_mul_left h hentry]

/-- The rounded prices of a trade with one exit give its return, where the prices are large. -/
theorem pricesReconcile_of_room {side : String} {entry exit : ℚ} (hentry : 0 < entry)
    (hexit : 1 / 2 / 10 ^ 10 < exit) (hroom : entry + exit ≤ 189000 * entry ^ 2) :
    PricesReconcile side entry exit costs := by
  have hpos : 0 < exit := lt_trans (by norm_num) hexit
  have hge := entry_ge hentry hpos hroom
  have he := abs_roundTo_sub_le 10 entry
  have hx := abs_roundTo_sub_le 10 exit
  set entry' := roundTo 10 entry
  set exit' := roundTo 10 exit
  have hquotient := abs_div_sub_div_le hentry hx he (by linarith) (by rwa [abs_of_pos hpos])
  refine ⟨by linarith [(abs_le.1 he).1], by linarith [(abs_le.1 hx).1], ?_⟩
  have hreturn : |returnPct side entry' exit' - returnPct side entry exit| ≤
      100 * (1 / 2 / 10 ^ 10 * 189000 * (10 ^ 5 / (10 ^ 5 - 1))) := by
    have hdiff : returnPct side entry' exit' - returnPct side entry exit =
        direction side * (exit' / entry' - exit / entry) * 100 := by
      simp only [returnPct]
      ring
    rw [hdiff, abs_mul, abs_mul, abs_direction, one_mul, abs_of_pos (by norm_num : (0 : ℚ) < 100)]
    linarith
  have hround := abs_le.1 (abs_roundTo_sub_le 4 (returnPct side entry exit - costs.pct * 100))
  have hledger := abs_le.1 costs.abs_ledger_sub_le
  have hreturn := abs_le.1 hreturn
  norm_num at hround hledger hreturn ⊢
  rw [abs_le]
  constructor <;> linarith

/-! ## Trades with fills -/

/-- The fill that `reconcile_partial_fills` makes of a fill. -/
def reconciled (entry : ℚ) (fill : Fill) : ReconciledFill where
  toFill := fill
  grossProceeds := fill.quantity * fill.price
  costAmount := fill.quantity * entry * fill.costPct / 100
  netProceeds := fill.quantity * fill.price - fill.quantity * entry * fill.costPct / 100

/-- The mean price of fills that close one unit. -/
def meanPrice (fills : List Fill) : ℚ := (fills.map fun fill => fill.quantity * fill.price).sum

/-- The reconciliation of fills at one cost rate that close one unit. -/
def unitReconciliation (entry : ℚ) (side : String) (rate : ℚ) (fills : List Fill) :
    QuantityReconciliation :=
  let pnl := direction side * (meanPrice fills - entry)
  { schema := "QuantityReconciliation.v2"
    entryQuantity := 1
    closedQuantity := 1
    remainingQuantity := 0
    entryPrice := entry
    side
    costBasis := "entry_notional"
    closedCostBasis := roundTo 12 entry
    grossProceeds := roundTo 12 (meanPrice fills)
    costAmount := roundTo 12 (entry * rate / 100)
    netProceeds := roundTo 12 (meanPrice fills - entry * rate / 100)
    grossPnl := roundTo 12 pnl
    netPnl := roundTo 12 (pnl - entry * rate / 100)
    netReturnPct := some (roundTo 10 ((pnl - entry * rate / 100) / entry * 100))
    fills := fills.map (reconciled entry) }

/-- Fills of positive quantity and price that close one unit at one cost rate. -/
structure UnitFills (rate : ℚ) (fills : List Fill) : Prop where
  nonempty : fills ≠ []
  quantity_pos : ∀ fill ∈ fills, 0 < fill.quantity
  price_pos : ∀ fill ∈ fills, 0 < fill.price
  rate_eq : ∀ fill ∈ fills, fill.costPct = rate
  sum_eq : (fills.map Fill.quantity).sum = 1

theorem sum_costAmount {entry rate : ℚ} {fills : List Fill} (h : ∀ fill ∈ fills, fill.costPct = rate) :
    ((fills.map (reconciled entry)).map ReconciledFill.costAmount).sum =
      (fills.map Fill.quantity).sum * (entry * rate / 100) := by
  induction fills with
  | nil => simp
  | cons fill rest ih =>
    obtain ⟨hfill, hrest⟩ := List.forall_mem_cons.1 h
    simp only [List.map_cons, List.sum_cons, ih hrest, reconciled, hfill]
    ring

theorem sum_netProceeds {entry rate : ℚ} {fills : List Fill} (h : ∀ fill ∈ fills, fill.costPct = rate) :
    ((fills.map (reconciled entry)).map ReconciledFill.netProceeds).sum =
      meanPrice fills - (fills.map Fill.quantity).sum * (entry * rate / 100) := by
  induction fills with
  | nil => simp [meanPrice]
  | cons fill rest ih =>
    obtain ⟨hfill, hrest⟩ := List.forall_mem_cons.1 h
    simp only [List.map_cons, List.sum_cons, ih hrest, meanPrice, reconciled, hfill]
    ring

theorem reconcilePartialFills_eq {entry rate : ℚ} {side : String} {fills : List Fill}
    (hentry : 0 < entry) (hside : side = "long" ∨ side = "short") (hrate : 0 ≤ rate)
    (h : UnitFills rate fills) : reconcilePartialFills 1 fills entry side =
      .ok (unitReconciliation entry side rate fills) := by
  have hmap : fills.mapM (reconcileFill entry) = .ok (fills.map (reconciled entry)) := by
    refine mapM_eq_ok fun fill hfill => ?_
    rw [reconcileFill, if_neg (by
      rw [h.rate_eq fill hfill]
      exact not_or.2 ⟨not_lt.2 hrate, not_le.2 (h.price_pos fill hfill)⟩)]
    rfl
  have hquantity : ¬ ∃ fill ∈ fills, fill.quantity ≤ 0 := by
    rintro ⟨fill, hfill, hle⟩
    exact absurd (h.quantity_pos fill hfill) (not_lt.2 hle)
  have hgross : ((fills.map (reconciled entry)).map ReconciledFill.grossProceeds).sum =
      meanPrice fills := by
    rw [List.map_map]
    rfl
  have hremaining : roundTo 12 (1 - 1) = 0 := by decide +kernel
  unfold reconcilePartialFills
  rw [if_neg (by rintro (h0 | h0) <;> linarith), if_neg (by tauto), if_neg h.nonempty,
    if_neg hquantity, if_neg (by rw [h.sum_eq]; norm_num), hmap]
  simp only [hgross, sum_costAmount h.rate_eq, sum_netProceeds h.rate_eq, h.sum_eq, one_mul,
    hremaining, unitReconciliation, direction]
  norm_num

/-- The fills of a partial trade. -/
def tradeFills (filled : Bool) (firstExit price rate : ℚ) : List Fill :=
  if filled then [⟨1 / 2, firstExit, rate⟩, ⟨1 - 1 / 2, price, rate⟩] else [⟨1, price, rate⟩]

theorem unitFills_tradeFills {filled : Bool} {firstExit price rate : ℚ} (hprice : 0 < price)
    (hfirst : filled = true → 0 < firstExit) : UnitFills rate (tradeFills filled firstExit price rate) := by
  cases filled with
  | false => exact ⟨by simp [tradeFills], by simp [tradeFills], by simp [tradeFills, hprice],
      by simp [tradeFills], by simp [tradeFills]⟩
  | true =>
    have hfirst := hfirst rfl
    refine ⟨by simp [tradeFills], ?_, ?_, by simp [tradeFills], ?_⟩
    · simp only [tradeFills, if_true, List.forall_mem_cons, List.not_mem_nil, false_imp_iff,
        implies_true, and_true]
      norm_num
    · simpa [tradeFills] using ⟨hfirst, hprice⟩
    · simp [tradeFills]

/-- What a partial trade binds when nothing raises. -/
def boundTrade (sha256 : String → String) (trade : TradeCore) (entry : ℚ) (side : String)
    (fills : List Fill) (costs : Costs) : Trade where
  toTradeCore := trade
  simulatorManifest := legacyFixtureManifest sha256
  simulatorModelId := (legacyFixtureManifest sha256).simulatorModelId
  simulatorEvidenceTier := (legacyFixtureManifest sha256).evidenceTier
  unsupportedSimulatorDimensions := (legacyFixtureManifest sha256).unsupportedDimensions
  costLedger := costs.ledger
  quantityLedger := unitQuantityLedger (fills.map Fill.quantity)
  fillReconciliation := some (unitReconciliation entry side (costs.pct * 100) fills)

/-- In exact arithmetic the net return of the fills is the one that the trade declares. -/
theorem netReturn_eq {entry rate mean : ℚ} {side : String} (hentry : 0 < entry) :
    (direction side * (mean - entry) - entry * rate / 100) / entry * 100 =
      returnPct side entry mean - rate := by
  rw [returnPct]
  field_simp

theorem abs_roundTo_sub_roundTo_le (q : ℚ) : |roundTo 10 q - roundTo 4 q| ≤ 1 / 10 ^ 3 := by
  have h₁ := abs_le.1 (abs_roundTo_sub_le 10 q)
  have h₂ := abs_le.1 (abs_roundTo_sub_le 4 q)
  rw [abs_le]
  constructor <;> linarith

theorem bindPartialTrade_eq {trade : TradeCore} {entry firstExit price : ℚ} {side : String}
    {filled : Bool} (hentry : 0 < entry) (hside : side = "long" ∨ side = "short")
    (hcosts : 0 ≤ costs.pct) (hprice : 0 < price) (hfirst : filled = true → 0 < firstExit)
    (hfraction : trade.partialExitFraction = some (if filled then 1 / 2 else 0))
    (hlegs : trade.partialLegPrices = some (if filled then [firstExit, price] else [price]))
    (hnet : trade.netPct = roundTo 4 (returnPct side entry
      (meanPrice (tradeFills filled firstExit price (costs.pct * 100))) - costs.pct * 100)) :
    bindPartialTrade sha256 trade entry side costs.feesBps costs.slippageBps costs.pct =
      .ok (boundTrade sha256 trade entry side (tradeFills filled firstExit price (costs.pct * 100))
        costs) := by
  have hunit : UnitFills (costs.pct * 100) (tradeFills filled firstExit price (costs.pct * 100)) :=
    unitFills_tradeFills hprice hfirst
  have hfills : (((if trade.partialExitFraction.getD 0 = 0 then [1]
      else [trade.partialExitFraction.getD 0, 1 - trade.partialExitFraction.getD 0]).zip
        (trade.partialLegPrices.getD [])).map fun leg => (⟨leg.1, leg.2, costs.pct * 100⟩ : Fill)) =
      tradeFills filled firstExit price (costs.pct * 100) := by
    rw [hfraction, hlegs]
    cases filled <;> simp [tradeFills]
  have hquantities : (if 0 < trade.partialExitFraction.getD 0 then
      [trade.partialExitFraction.getD 0, 1 - trade.partialExitFraction.getD 0] else [1]) =
        (tradeFills filled firstExit price (costs.pct * 100)).map Fill.quantity := by
    rw [hfraction]
    cases filled <;> simp [tradeFills]
  have hmatch : ¬ 1 / 10 ^ 3 < |(unitReconciliation entry side (costs.pct * 100)
      (tradeFills filled firstExit price (costs.pct * 100))).netReturnPct.getD 0 - trade.netPct| := by
    simp only [unitReconciliation, Option.getD_some, netReturn_eq hentry, hnet, not_lt]
    exact abs_roundTo_sub_roundTo_le _
  have hquantity : buildTradeQuantityLedger 1 ((tradeFills filled firstExit price
      (costs.pct * 100)).map Fill.quantity) = .ok (unitQuantityLedger ((tradeFills filled firstExit
        price (costs.pct * 100)).map Fill.quantity)) := by
    refine buildTradeQuantityLedger_unit (fun leg hleg => ?_) hunit.sum_eq
    obtain ⟨fill, hfill, rfl⟩ := List.mem_map.1 hleg
    exact hunit.quantity_pos fill hfill
  refine bind_eq_ok.2 ⟨unitReconciliation entry side (costs.pct * 100)
    (tradeFills filled firstExit price (costs.pct * 100)), ?_, ?_⟩
  · rw [hfills]
    exact reconcilePartialFills_eq hentry hside (by positivity) hunit
  · rw [if_neg hmatch]
    exact bind_eq_ok.2 ⟨_, by rw [hquantities, hquantity], rfl⟩

/-- The basis survives the rounding to twelve decimals, the rounded cost is the declared one up
to 10⁻⁹, and the return recomputed from the rounded amounts lies within 0.001 of the declared
ones. -/
def FillsReconcile (side : String) (entry mean : ℚ) (costs : Costs) : Prop :=
  let gross := roundTo 12 (direction side * (mean - entry)) / roundTo 12 entry * 100
  roundTo 12 entry ≠ 0 ∧
    |roundTo 12 (entry * (costs.pct * 100) / 100) / roundTo 12 entry * 100 -
      costs.ledger.totalPct| ≤ 1 / 10 ^ 9 ∧
    |roundTo 4 (returnPct side entry mean) - gross| ≤ 1 / 10 ^ 3 ∧
    |gross - costs.ledger.totalPct -
      roundTo 4 (returnPct side entry mean - costs.pct * 100)| ≤ 1 / 10 ^ 3

/-- The rounded amounts of a trade with two fills give its costs and its return, where the prices
are large. -/
theorem fillsReconcile_of_room {side : String} {entry mean : ℚ} (hentry : 0 < entry)
    (hmean : 0 < mean) (hroom : entry + mean ≤ 189000 * entry ^ 2) (hcosts : 0 ≤ costs.pct)
    (hcost : 1 + costs.pct ≤ 17 * entry) : FillsReconcile side entry mean costs := by
  have he := abs_roundTo_sub_le 12 entry
  set basis := roundTo 12 entry
  have hledger := abs_le.1 costs.abs_ledger_sub_le
  have hcostQuotient : |roundTo 12 (entry * (costs.pct * 100) / 100) / basis - costs.pct| ≤
      1 / 2 / 10 ^ 12 * 17 * (10 ^ 5 / (10 ^ 5 - 1)) := by
    have hdiv : entry * (costs.pct * 100) / 100 / entry = costs.pct := by field_simp
    have habs : |entry * (costs.pct * 100) / 100| = entry * costs.pct := by
      rw [abs_of_nonneg (by positivity)]
      ring
    have h := abs_div_sub_div_le hentry (abs_roundTo_sub_le 12 (entry * (costs.pct * 100) / 100)) he
      (K := 17) (by linarith) (by rw [habs]; nlinarith)
    rwa [hdiv] at h
  have hwide : |direction side * (mean - entry)| ≤ 189000 * entry ^ 2 - entry := by
    have hself : entry ≤ 189000 * entry ^ 2 - entry := by nlinarith
    rw [abs_mul, abs_direction, one_mul, abs_le]
    constructor <;> linarith
  have hgross : |roundTo 12 (direction side * (mean - entry)) / basis * 100 -
      returnPct side entry mean| ≤ 100 * (1 / 2 / 10 ^ 12 * 189000 * (10 ^ 5 / (10 ^ 5 - 1))) := by
    have hreturn : returnPct side entry mean = direction side * (mean - entry) / entry * 100 := by
      rw [returnPct]
      field_simp
    have h := abs_div_sub_div_le hentry (abs_roundTo_sub_le 12 (direction side * (mean - entry))) he
      (K := 189000) (by linarith) (by linarith)
    rw [hreturn, ← sub_mul, abs_mul, abs_of_pos (by norm_num : (0 : ℚ) < 100)]
    linarith
  have hround := abs_le.1 (abs_roundTo_sub_le 4 (returnPct side entry mean))
  have hnet := abs_le.1 (abs_roundTo_sub_le 4 (returnPct side entry mean - costs.pct * 100))
  have hbasis : basis ≠ 0 := ne_of_gt (by linarith [(abs_le.1 he).1])
  have hcostQuotient := abs_le.1 hcostQuotient
  have hgross := abs_le.1 hgross
  norm_num at hround hnet hledger hgross hcostQuotient
  refine ⟨hbasis, ?_, ?_, ?_⟩ <;> rw [abs_le] <;> constructor <;> norm_num <;> linarith

theorem validate_boundTrade_iff {trade : TradeCore} {entry : ℚ} {side : String} {fills : List Fill}
    (hentry : 0 < entry) (hside : side = "long" ∨ side = "short") (hcosts : 0 ≤ costs.pct)
    (hunit : UnitFills (costs.pct * 100) fills)
    (hgross : trade.grossPct = some (roundTo 4 (returnPct side entry (meanPrice fills))))
    (hnet : trade.netPct =
      roundTo 4 (returnPct side entry (meanPrice fills) - costs.pct * 100)) :
    validateTradeContract sha256 (boundTrade sha256 trade entry side fills costs)
        (legacyFixtureManifest sha256) = .ok () ↔
      FillsReconcile side entry (meanPrice fills) costs := by
  rw [validate_trade_eq rfl rfl rfl rfl]
  set t := boundTrade sha256 trade entry side fills costs with ht
  set r := unitReconciliation entry side (costs.pct * 100) fills with hr
  have hquantity : checkQuantities t.quantityLedger = .ok () := by
    refine checkQuantities_unit (fun leg hleg => ?_) hunit.sum_eq
    obtain ⟨fill, hfill, rfl⟩ := List.mem_map.1 hleg
    exact hunit.quantity_pos fill hfill
  have hevidence : grossReturn t = checkReconciliation t r := rfl
  have hfills : r.fills.map ReconciledFill.toFill = fills := by
    rw [hr, unitReconciliation, List.map_map]
    exact List.map_id _
  have hlegs : r.fills.map (fun fill => fill.quantity) = t.quantityLedger.closedLegs := by
    rw [hr, unitReconciliation, List.map_map]
    rfl
  have hcanonical : reconcilePartialFills r.entryQuantity (r.fills.map ReconciledFill.toFill)
      r.entryPrice r.side = .ok r := by
    rw [hfills]
    exact reconcilePartialFills_eq hentry hside (by positivity) hunit
  have hnetReturn : r.netReturnPct =
      some (roundTo 10 (returnPct side entry (meanPrice fills) - costs.pct * 100)) := by
    rw [hr]
    simp only [unitReconciliation, netReturn_eq hentry]
  have hclose : ¬ 1 / 10 ^ 3 < |roundTo 10 (returnPct side entry (meanPrice fills) -
      costs.pct * 100) - t.netPct| := by
    rw [show t.netPct = trade.netPct from rfl, hnet]
    exact not_lt.2 (abs_roundTo_sub_roundTo_le _)
  have hreturn : ∀ gross, checkReconciliation t r = .ok gross ↔
      roundTo 12 entry ≠ 0 ∧
        |roundTo 12 (entry * (costs.pct * 100) / 100) / roundTo 12 entry * 100 -
          costs.ledger.totalPct| ≤ 1 / 10 ^ 9 ∧
        roundTo 12 (direction side * (meanPrice fills - entry)) / roundTo 12 entry * 100 =
          gross := by
    intro gross
    have hschema : r.schema = "QuantityReconciliation.v2" := rfl
    have hzero : ¬ ((1 : ℚ) / 10 ^ 9 < |r.entryQuantity - t.quantityLedger.entryQuantity| ∨
        r.fills.map (fun fill => fill.quantity) ≠ t.quantityLedger.closedLegs ∨
        1 / 10 ^ 9 < |r.closedQuantity - t.quantityLedger.closedQuantity| ∨
        1 / 10 ^ 9 < |r.remainingQuantity - t.quantityLedger.remainingQuantity|) := by
      have h₁ : r.entryQuantity - t.quantityLedger.entryQuantity = 0 := sub_self 1
      have h₂ : r.closedQuantity - t.quantityLedger.closedQuantity = 0 := sub_self 1
      have h₃ : r.remainingQuantity - t.quantityLedger.remainingQuantity = 0 := sub_self 0
      rw [h₁, h₂, h₃]
      simp [hlegs]
    have hbasis : r.closedCostBasis = roundTo 12 entry := rfl
    have hcost : r.costAmount = roundTo 12 (entry * (costs.pct * 100) / 100) := rfl
    have hpnl : r.grossPnl = roundTo 12 (direction side * (meanPrice fills - entry)) := rfl
    have htotal : t.costLedger.totalPct = costs.ledger.totalPct := rfl
    simp only [checkReconciliation, check_eq_ok, bind_eq_ok, hschema, hcanonical]
    constructor
    · rintro ⟨-, c, hc, -, -, h₁, h₂, h₃⟩
      obtain rfl := Except.ok.inj hc
      simp only [hnetReturn, check_eq_ok, Except.ok.injEq, hbasis, hpnl] at h₃
      rw [hcost, hbasis, htotal, not_lt] at h₂
      exact ⟨h₁, h₂, h₃.2⟩
    · rintro ⟨h₁, h₂, rfl⟩
      refine ⟨by simp, r, rfl, by simp, hzero, h₁, ?_, ?_⟩
      · rw [hcost, hbasis, htotal]
        exact not_lt.2 h₂
      · simp only [hnetReturn, check_eq_ok, hbasis, hpnl, and_true]
        exact hclose
  have hgross' : t.grossPct = some (roundTo 4 (returnPct side entry (meanPrice fills))) := hgross
  have hnet' : t.netPct =
      roundTo 4 (returnPct side entry (meanPrice fills) - costs.pct * 100) := hnet
  have htotal : t.costLedger.totalPct = costs.ledger.totalPct := rfl
  simp only [hquantity, hevidence, hreturn, checkReturn_eq_ok, hgross', hnet', htotal,
    Option.some.injEq, forall_eq', FillsReconcile]
  constructor
  · rintro ⟨-, gross, ⟨h₁, h₂, rfl⟩, h₃, h₄⟩
    exact ⟨h₁, h₂, h₃, h₄⟩
  · rintro ⟨h₁, h₂, h₃, h₄⟩
    exact ⟨trivial, _, ⟨h₁, h₂, rfl⟩, h₃, h₄⟩

/-- The return of a partial trade is that of its mean price. -/
theorem returnPct_meanPrice {entry : ℚ} (hentry : 0 < entry) (side : String) (filled : Bool)
    (firstExit price rate : ℚ) :
    (if filled then 1 / 2 else 0) * (if filled then returnPct side entry firstExit else 0) +
        (1 - if filled then 1 / 2 else 0) * returnPct side entry price =
      returnPct side entry (meanPrice (tradeFills filled firstExit price rate)) := by
  cases filled with
  | false => simp [meanPrice, tradeFills]
  | true =>
    simp only [if_true, meanPrice, tradeFills, List.map_cons, List.map_nil, List.sum_cons,
      List.sum_nil, returnPct]
    field_simp
    ring

end

/-! ## The trades of a run -/

section
variable {candles : List Candle} {params : Params} {costs : Costs} {sig : Signal} {cap : ℕ}
  {entry tp1Pct tp2Pct : ℚ}

/-- The fills of the partial trade of a signal. -/
def partialFills (candles : List Candle) (params : Params) (sig : Signal) (costs : Costs) (cap : ℕ)
    (entry tp1Pct tp2Pct : ℚ) : List Fill :=
  let long := isLong sig.side
  let filled := ((partialScan long entry tp1Pct tp2Pct).last
    (partialStart entry (params.stopPct.getD 0) long) (barsBetween candles sig.idx cap)).filledFirst
  tradeFills filled (if filled then (level entry tp1Pct long).getD entry else entry)
    (decidedExit candles params sig cap entry).price (costs.pct * 100)

/-- The prices of the trade of a signal are large enough for the roundings of the validator. -/
def Reconciles (candles : List Candle) (params : Params) (costs : Costs) (sig : Signal) (cap : ℕ)
    (entry : ℚ) : Prop :=
  match partialTakes params with
  | none => PricesReconcile sig.side entry (decidedExit candles params sig cap entry).price costs
  | some (tp1Pct, tp2Pct) => FillsReconcile sig.side entry
      (meanPrice (partialFills candles params sig costs cap entry tp1Pct tp2Pct)) costs

theorem partialTrade_accepted_iff (sha256 : String → String) (hbars : ∀ bar ∈ candles, WellFormed bar)
    (hside : sig.side = "long" ∨ sig.side = "short") (hcosts : 0 ≤ costs.pct)
    (hw : holdingWindow candles sig.idx (holdBarsOf params) = some (cap, entry))
    (htwo : partialTakes params = some (tp1Pct, tp2Pct)) :
    ∃ t, bindPartialTrade sha256 (partialDynamicTrade candles sig.idx cap entry sig.side
        (params.stopPct.getD 0) tp1Pct tp2Pct sig costs.pct) entry sig.side costs.feesBps
          costs.slippageBps costs.pct = .ok t ∧
      (validateTradeContract sha256 t (legacyFixtureManifest sha256) = .ok () ↔
        Reconciles candles params costs sig cap entry) := by
  obtain ⟨hidx, hcap, -, hentry⟩ := holdingWindow_eq_some hw
  have hrange := holdingWindow_inRange hbars hw
  set trade := partialDynamicTrade candles sig.idx cap entry sig.side (params.stopPct.getD 0)
    tp1Pct tp2Pct sig costs.pct with htrade
  set S := partialScan (isLong sig.side) entry tp1Pct tp2Pct with hS
  set start := partialStart entry (params.stopPct.getD 0) (isLong sig.side) with hstart
  set bars := barsBetween candles sig.idx cap with hbarsEq
  set filled := (S.last start bars).filledFirst with hfilled
  set firstExit := if filled then (level entry tp1Pct (isLong sig.side)).getD entry else entry
    with hfirstExit
  set exit := decidedExit candles params sig cap entry with hexit
  have hdecided : exit = exitOf candles sig.idx cap (S.run start bars) := by
    simp only [hexit, decidedExit, htwo, hS, hstart, hbarsEq]
  have hfills : partialFills candles params sig costs cap entry tp1Pct tp2Pct =
      tradeFills filled firstExit exit.price (costs.pct * 100) := rfl
  obtain ⟨hprice, hfirst⟩ : 0 < exit.price ∧ (filled = true → 0 < firstExit) := by
    have hwindow : ∀ bar ∈ bars, WellFormed bar := fun bar hbar => hbars bar (mem_barsBetween hbar)
    refine ⟨(decidedExit_inRange hbars hidx.le hcap hrange params rfl).pos hwindow, fun htrue => ?_⟩
    rw [hfirstExit, if_pos htrue]
    exact (firstExit_inRange hbars hrange htrue).pos hwindow
  have hret := returnPct_meanPrice hentry sig.side filled firstExit exit.price (costs.pct * 100)
  have hfields : trade.partialExitFraction = some (if filled then 1 / 2 else 0) ∧
      trade.partialLegPrices = some (if filled then [firstExit, exit.price] else [exit.price]) ∧
      trade.grossPct = some (roundTo 4 (returnPct sig.side entry
        (meanPrice (tradeFills filled firstExit exit.price (costs.pct * 100))))) ∧
      trade.netPct = roundTo 4 (returnPct sig.side entry
        (meanPrice (tradeFills filled firstExit exit.price (costs.pct * 100))) -
          costs.pct * 100) := by
    rw [← hret, hdecided]
    simp only [htrade, partialDynamicTrade, describeTrade]
    exact ⟨rfl, rfl, rfl, rfl⟩
  obtain ⟨hfraction, hlegs, hgross, hnet⟩ := hfields
  refine ⟨_, bindPartialTrade_eq hentry hside hcosts hprice hfirst hfraction hlegs hnet, ?_⟩
  rw [validate_boundTrade_iff hentry hside hcosts (unitFills_tradeFills hprice hfirst) hgross hnet]
  simp only [Reconciles, htwo, hfills]

/-- The prices of a signal that gets a trade are large enough. -/
def SignalReconciles (candles : List Candle) (params : Params) (costs : Costs)
    (requireCompleteHorizon : Bool) (sig : Signal) : Prop :=
  ∀ cap entry, holdingWindow candles sig.idx (holdBarsOf params) = some (cap, entry) →
    ¬ (requireCompleteHorizon ∧ cutOff candles sig.idx (holdBarsOf params)
      (decidedExit candles params sig cap entry).outcome) →
    Reconciles candles params costs sig cap entry

theorem signal_accepted_iff (sha256 : String → String) (params : Params)
    (requireCompleteHorizon : Bool) (hbars : ∀ bar ∈ candles, WellFormed bar)
    (hside : sig.side = "long" ∨ sig.side = "short") (hcosts : 0 ≤ costs.pct) :
    ∃ o, tradeOf sha256 candles params costs requireCompleteHorizon sig = .ok o ∧
      ((∀ t ∈ o, validateTradeContract sha256 t (legacyFixtureManifest sha256) = .ok ()) ↔
        SignalReconciles candles params costs requireCompleteHorizon sig) := by
  rw [tradeOf_eq]
  cases hw : holdingWindow candles sig.idx (holdBarsOf params) with
  | none => exact ⟨none, rfl, by simp [SignalReconciles, hw]⟩
  | some w =>
    obtain ⟨cap, entry⟩ := w
    have hcondition : SignalReconciles candles params costs requireCompleteHorizon sig ↔
        (¬ (requireCompleteHorizon ∧ cutOff candles sig.idx (holdBarsOf params)
          (decidedExit candles params sig cap entry).outcome) →
            Reconciles candles params costs sig cap entry) := by
      constructor
      · exact fun h => h cap entry hw
      · intro h cap' entry' hw'
        obtain ⟨rfl, rfl⟩ : cap = cap' ∧ entry = entry' := by simpa [hw] using hw'
        exact h
    rw [hcondition]
    dsimp only
    split_ifs with hcut
    · exact ⟨none, rfl, by simp [hcut]⟩
    · cases htwo : partialTakes params with
      | none =>
        refine ⟨_, rfl, ?_⟩
        simp only [Option.mem_some_iff, forall_eq', hcut, not_false_eq_true, forall_const]
        rw [validate_finalTrade_iff hside]
        simp only [Reconciles, htwo]
      | some takes =>
        obtain ⟨tp1Pct, tp2Pct⟩ := takes
        obtain ⟨t, ht, haccepted⟩ := partialTrade_accepted_iff sha256 hbars hside hcosts hw
          htwo
        dsimp only
        refine ⟨some t, by rw [ht]; rfl, ?_⟩
        simpa [hcut] using haccepted

/-- A run never raises, and the validator accepts all its trades when it accepts those of every
signal. -/
theorem trades_accepted_iff (sha256 : String → String) (candles : List Candle)
    (signals : List Signal) (params : Params) (costs : Costs) (requireCompleteHorizon : Bool)
    (hbars : ∀ bar ∈ candles, WellFormed bar)
    (hsides : ∀ sig ∈ signals, sig.side = "long" ∨ sig.side = "short")
    (hfees : 0 ≤ costs.feesBps) (hslippage : 0 ≤ costs.slippageBps) :
    ∃ trades, simulateTrades sha256 candles signals params costs requireCompleteHorizon =
        .ok trades ∧
      ((∀ t ∈ trades, validateTradeContract sha256 t (legacyFixtureManifest sha256) = .ok ()) ↔
        ∀ sig ∈ signals, SignalReconciles candles params costs requireCompleteHorizon sig) := by
  have hcosts : 0 ≤ costs.pct := by
    rw [Costs.pct]
    positivity
  unfold simulateTrades
  induction signals with
  | nil => exact ⟨[], rfl, by simp⟩
  | cons sig rest ih =>
    obtain ⟨hside, hrest⟩ := List.forall_mem_cons.1 hsides
    obtain ⟨trades, htrades, haccepted⟩ := ih hrest
    obtain ⟨o, ho, hone⟩ := signal_accepted_iff sha256 params requireCompleteHorizon hbars hside
      hcosts
    rw [List.forall_mem_cons, ← hone, ← haccepted]
    simp only [tradesOf, ho]
    cases o with
    | none => exact ⟨trades, htrades, by simp⟩
    | some t => exact ⟨t :: trades, by rw [htrades]; rfl, by simp⟩

/-! ## Large prices -/

/-- The prices of a window are large enough for the roundings of the validator: no low is rounded
to nothing, the highs are small against the square of the entry, and a trade in two fills has an
entry that is not small against its costs. -/
def LargePrices (twoFills : Bool) (costs : Costs) (bars : List Candle) (entry : ℚ) : Prop :=
  (∀ bar ∈ bars, 1 / 2 / 10 ^ 10 < bar.low ∧ entry + bar.high ≤ 189000 * entry ^ 2) ∧
    (twoFills = true → 1 + costs.pct ≤ 17 * entry)

instance (twoFills : Bool) (costs : Costs) (bars : List Candle) (entry : ℚ) :
    Decidable (LargePrices twoFills costs bars entry) := inferInstanceAs (Decidable (_ ∧ _))

theorem LargePrices.of_inRange {twoFills : Bool} {bars : List Candle} {price : ℚ}
    (h : LargePrices twoFills costs bars entry) (hprice : InRange bars price) :
    1 / 2 / 10 ^ 10 < price ∧ entry + price ≤ 189000 * entry ^ 2 := by
  obtain ⟨⟨low, hlow, hle⟩, high, hhigh, hge⟩ := hprice
  have hroom := (h.1 high hhigh).2
  exact ⟨(h.1 low hlow).1.trans_le hle, by linarith⟩

theorem InRange.mean {bars : List Candle} {p q : ℚ} (hp : InRange bars p) (hq : InRange bars q) :
    InRange bars (1 / 2 * p + (1 - 1 / 2) * q) := by
  obtain ⟨⟨low, hlow, hle⟩, high, hhigh, hge⟩ := hp
  obtain ⟨⟨low', hlow', hle'⟩, high', hhigh', hge'⟩ := hq
  rcases le_total p q with hpq | hpq
  · exact ⟨⟨low, hlow, by linarith⟩, high', hhigh', by linarith⟩
  · exact ⟨⟨low', hlow', by linarith⟩, high, hhigh, by linarith⟩

theorem meanPrice_inRange {bars : List Candle} {filled : Bool} {firstExit price rate : ℚ}
    (hprice : InRange bars price) (hfirst : filled = true → InRange bars firstExit) :
    InRange bars (meanPrice (tradeFills filled firstExit price rate)) := by
  cases filled with
  | false => simpa [meanPrice, tradeFills] using hprice
  | true => simpa [meanPrice, tradeFills] using (hfirst rfl).mean hprice

/-- The validator accepts the trade of a window with large prices. -/
theorem reconciles_of_large (hbars : ∀ bar ∈ candles, WellFormed bar) (hcosts : 0 ≤ costs.pct)
    (hw : holdingWindow candles sig.idx (holdBarsOf params) = some (cap, entry))
    (h : LargePrices (partialTakes params).isSome costs (barsBetween candles sig.idx cap) entry) :
    Reconciles candles params costs sig cap entry := by
  obtain ⟨hidx, hcap, -, hpos⟩ := holdingWindow_eq_some hw
  have hentry := holdingWindow_inRange hbars hw
  have hexit : InRange (barsBetween candles sig.idx cap)
      (decidedExit candles params sig cap entry).price :=
    decidedExit_inRange hbars hidx.le hcap hentry params rfl
  unfold Reconciles
  cases htwo : partialTakes params with
  | none =>
    obtain ⟨hlow, hroom⟩ := h.of_inRange hexit
    exact pricesReconcile_of_room hpos hlow hroom
  | some takes =>
    obtain ⟨tp1Pct, tp2Pct⟩ := takes
    have hmean : InRange (barsBetween candles sig.idx cap)
        (meanPrice (partialFills candles params sig costs cap entry tp1Pct tp2Pct)) := by
      refine meanPrice_inRange hexit fun hfilled => ?_
      rw [if_pos hfilled]
      exact firstExit_inRange hbars hentry hfilled
    obtain ⟨hlow, hroom⟩ := h.of_inRange hmean
    exact fillsReconcile_of_room hpos (lt_trans (by norm_num) hlow) hroom hcosts
      (h.2 (by rw [htwo]; rfl))

end

end ResearchLab.Simulation
