import Mathlib
import ResearchLab.Foundation.Json
import ResearchLab.Foundation.Rounding

/-!
# The evidence contract of a simulated trade

The manifest of the fixed OHLC simulator and the ledgers that every trade carries. Prices and
percentages are exact rationals, so that the checks for finite numbers are void.
-/
namespace ResearchLab.Simulation
open Foundation

structure Manifest where
  schema : String
  simulatorModelId : String
  evidenceTier : String
  policies : List (String × String)
  unsupportedDimensions : List String
  claimCeiling : String
  manifestId : String
  deriving DecidableEq

/-- `_identity_payload`: the manifest without its id. -/
def identityPayload (m : Manifest) : Json Empty :=
  .obj [("schema", .str m.schema), ("simulator_model_id", .str m.simulatorModelId),
    ("evidence_tier", .str m.evidenceTier),
    ("policies", .obj (m.policies.map fun p => (p.1, .str p.2))),
    ("unsupported_dimensions", .arr (m.unsupportedDimensions.map .str)),
    ("claim_ceiling", .str m.claimCeiling)]

def manifestId (sha256 : String → String) (m : Manifest) : String :=
  "sim_" ++ sha256 (String.ofList (Json.dumps (Json.canonical fun x : Empty => nomatch x)
    (identityPayload m)))

/-- `_bind`. -/
def bindManifest (sha256 : String → String) (m : Manifest) : Manifest :=
  { m with manifestId := manifestId sha256 m }

def legacyFixtureManifest (sha256 : String → String) : Manifest :=
  bindManifest sha256
    { schema := "SimulatorAssumptionManifest.v2"
      simulatorModelId := "deterministic_ohlc_fixture.v1"
      evidenceTier := "deterministic_fixture"
      policies :=
        [("entry", "next_bar_open_fixture"), ("gap", "exact_trigger_fixture"),
          ("same_bar", "entry_bar_included"), ("dual_touch", "stop_first_fixture"),
          ("costs", "fees_plus_fixed_slippage_once"),
          ("liquidity", "range_touch_unbounded_fixture"), ("funding", "not_modeled"),
          ("account", "independent_what_if_trades")]
      unsupportedDimensions :=
        ["intrabar_event_order", "gap_executable_price", "spread", "liquidity",
          "partial_fill", "queue_priority", "market_impact", "funding_cashflow",
          "shared_account_capacity", "observed_fill_calibration"]
      claimCeiling := "deterministic_fixture"
      manifestId := "" }

/-! ## Costs -/

structure CostLedger where
  schema : String
  componentsPct : List (String × ℚ)
  totalPct : ℚ
  attributionStatus : String
  deriving DecidableEq

/-- The arguments of `build_cost_ledger` with their defaults. -/
structure CostComponents where
  feesBps : ℚ := 0
  spreadBps : ℚ := 0
  slippageBps : ℚ := 0
  impactBps : ℚ := 0
  fundingPct : ℚ := 0

def componentsPct (c : CostComponents) : List (String × ℚ) :=
  [("fees", roundTo 10 (c.feesBps / 100)), ("spread", roundTo 10 (c.spreadBps / 100)),
    ("slippage", roundTo 10 (c.slippageBps / 100)), ("impact", roundTo 10 (c.impactBps / 100)),
    ("funding", roundTo 10 c.fundingPct)]

def buildCostLedger (c : CostComponents) : CostLedger where
  schema := "TradeCostLedger.v2"
  componentsPct := componentsPct c
  totalPct := roundTo 10 ((componentsPct c).map Prod.snd).sum
  attributionStatus := "declared_assumptions_not_observed"

/-- The ledger gives the total of its components up to the rounding of each and of the sum. -/
theorem abs_totalPct_sub_le (c : CostComponents) :
    |(buildCostLedger c).totalPct - (c.feesBps / 100 + c.spreadBps / 100 + c.slippageBps / 100 +
      c.impactBps / 100 + c.fundingPct)| ≤ 3 / 10 ^ 10 := by
  have h₁ := abs_le.1 (abs_roundTo_sub_le 10 (c.feesBps / 100))
  have h₂ := abs_le.1 (abs_roundTo_sub_le 10 (c.spreadBps / 100))
  have h₃ := abs_le.1 (abs_roundTo_sub_le 10 (c.slippageBps / 100))
  have h₄ := abs_le.1 (abs_roundTo_sub_le 10 (c.impactBps / 100))
  have h₅ := abs_le.1 (abs_roundTo_sub_le 10 c.fundingPct)
  have h₆ := abs_le.1 (abs_roundTo_sub_le 10 ((componentsPct c).map Prod.snd).sum)
  have hsum : ((componentsPct c).map Prod.snd).sum = roundTo 10 (c.feesBps / 100) +
      (roundTo 10 (c.spreadBps / 100) + (roundTo 10 (c.slippageBps / 100) +
        (roundTo 10 (c.impactBps / 100) + roundTo 10 c.fundingPct))) := by
    simp [componentsPct]
  rw [abs_le]
  simp only [buildCostLedger]
  constructor <;> linarith

def buildLegacyCombinedCostLedger (costPctFraction : ℚ) : Except String CostLedger :=
  let totalPct := costPctFraction * 100
  if totalPct < 0 then .error "legacy combined cost must be finite and non-negative"
  else .ok
    { schema := "TradeCostLedger.v2"
      componentsPct := [("legacy_fees_plus_slippage_combined", roundTo 10 totalPct)]
      totalPct := roundTo 10 totalPct
      attributionStatus := "legacy_combined_not_separable" }

/-! ## Quantities -/

structure QuantityLedger where
  schema : String
  basis : String
  entryQuantity : ℚ
  closedLegs : List ℚ
  closedQuantity : ℚ
  remainingQuantity : ℚ
  availabilityStatus : String
  deriving DecidableEq

def buildTradeQuantityLedger (entryQuantity : ℚ) (closedLegs : List ℚ) :
    Except String QuantityLedger :=
  if entryQuantity ≤ 0 ∨ ∃ leg ∈ closedLegs, leg ≤ 0 then
    .error "quantity ledger values must be positive"
  else if entryQuantity + 1 / 10 ^ 12 < closedLegs.sum then
    .error "closed quantity exceeds entry quantity"
  else .ok
    { schema := "TradeQuantityLedger.v2"
      basis := "normalized_unit_fixture_not_market_size"
      entryQuantity
      closedLegs
      closedQuantity := closedLegs.sum
      remainingQuantity := roundTo 12 (entryQuantity - closedLegs.sum)
      availabilityStatus := "unmodeled" }

/-! ## Partial fills -/

structure Fill where
  quantity : ℚ
  price : ℚ
  costPct : ℚ
  deriving DecidableEq

/-- A fill with the amounts that `reconcile_partial_fills` adds to it. -/
structure ReconciledFill extends Fill where
  grossProceeds : ℚ
  costAmount : ℚ
  netProceeds : ℚ
  deriving DecidableEq

structure QuantityReconciliation where
  schema : String
  entryQuantity : ℚ
  closedQuantity : ℚ
  remainingQuantity : ℚ
  entryPrice : ℚ
  side : String
  costBasis : String
  closedCostBasis : ℚ
  grossProceeds : ℚ
  costAmount : ℚ
  netProceeds : ℚ
  grossPnl : ℚ
  netPnl : ℚ
  netReturnPct : Option ℚ
  fills : List ReconciledFill
  deriving DecidableEq

def reconcileFill (entryPx : ℚ) (fill : Fill) : Except String ReconciledFill :=
  if fill.costPct < 0 ∨ fill.price ≤ 0 then .error "fill price and cost rate must be valid"
  else
    let gross := fill.quantity * fill.price
    let cost := fill.quantity * entryPx * fill.costPct / 100
    .ok { fill with grossProceeds := gross, costAmount := cost, netProceeds := gross - cost }

def reconcilePartialFills (entryQuantity : ℚ) (fills : List Fill) (entryPrice : ℚ)
    (side : String) : Except String QuantityReconciliation :=
  if entryQuantity ≤ 0 ∨ entryPrice ≤ 0 then .error "entry quantity and price must be positive"
  else if side ≠ "long" ∧ side ≠ "short" then .error "side must be long or short"
  else if fills = [] then .error "at least one fill is required"
  else if ∃ fill ∈ fills, fill.quantity ≤ 0 then .error "fill quantity must be positive"
  else if entryQuantity + 1 / 10 ^ 12 < (fills.map Fill.quantity).sum then
    .error "closed quantity exceeds entry quantity"
  else
    match fills.mapM (reconcileFill entryPrice) with
    | .error e => .error e
    | .ok normalized =>
        let closed := (fills.map Fill.quantity).sum
        let gross := (normalized.map ReconciledFill.grossProceeds).sum
        let cost := (normalized.map ReconciledFill.costAmount).sum
        let net := (normalized.map ReconciledFill.netProceeds).sum
        let basis := closed * entryPrice
        let grossPnl := (if side = "long" then 1 else -1) * (gross - basis)
        let netPnl := grossPnl - cost
        .ok
          { schema := "QuantityReconciliation.v2"
            entryQuantity
            closedQuantity := closed
            remainingQuantity := roundTo 12 (entryQuantity - closed)
            entryPrice
            side
            costBasis := "entry_notional"
            closedCostBasis := roundTo 12 basis
            grossProceeds := roundTo 12 gross
            costAmount := roundTo 12 cost
            netProceeds := roundTo 12 net
            grossPnl := roundTo 12 grossPnl
            netPnl := roundTo 12 netPnl
            netReturnPct := if closed = 0 then none else some (roundTo 10 (netPnl / basis * 100))
            fills := normalized }

end ResearchLab.Simulation
