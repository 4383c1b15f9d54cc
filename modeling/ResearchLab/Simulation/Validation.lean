import Mathlib
import ResearchLab.Simulation.Manifests
import ResearchLab.Simulation.Decisions

/-!
# The validator of trades

`validate_trade_contract`: it recomputes the return of a trade from its rounded prices, or from
its rounded fill reconciliation, and compares.
-/
namespace ResearchLab.Simulation
open Foundation

variable (sha256 : String → String)

def standardNames : List String := ["fees", "spread", "slippage", "impact", "funding"]

def legacyNames : List String := ["legacy_fees_plus_slippage_combined"]

/-- `value = float(component_map[name])`. -/
def component (ledger : CostLedger) (name : String) : ℚ := (ledger.componentsPct.lookup name).getD 0

/-- `manifest["policies"].get("costs")`. -/
def costsPolicy (manifest : Manifest) : Option String := manifest.policies.lookup "costs"

/-- The names of the components of a ledger and what they entitle it to. -/
def checkCostNames (manifest : Manifest) (ledger : CostLedger) : Except String Unit :=
  let names := ledger.componentsPct.map Prod.fst
  if names.toFinset = standardNames.toFinset then
    if ledger.attributionStatus ≠ "declared_assumptions_not_observed" then
      .error "trade cost attribution status is not canonical"
    else if (costsPolicy manifest = some "fees_plus_fixed_slippage_once" ∨
        costsPolicy manifest = some "declared_paper_cost_assumptions") ∧
        ∃ name ∈ ["spread", "impact", "funding"], component ledger name ≠ 0 then
      .error "trade cost components exceed simulator assumptions"
    else .ok ()
  else if names.toFinset = legacyNames.toFinset then
    if ledger.attributionStatus ≠ "legacy_combined_not_separable" then
      .error "legacy combined cost attribution status is not canonical"
    else if costsPolicy manifest ≠ some "fees_plus_fixed_slippage_once" then
      .error "legacy combined costs contradict simulator policy"
    else .ok ()
  else .error "trade cost component names are not canonical"

def checkCosts (manifest : Manifest) (ledger : CostLedger) : Except String Unit :=
  if ledger.schema ≠ "TradeCostLedger.v2" then .error "trade cost ledger is required"
  else do
    checkCostNames manifest ledger
    if 1 / 10 ^ 9 < |(ledger.componentsPct.map Prod.snd).sum - ledger.totalPct| then
      .error "trade cost ledger does not reconcile"
    else .ok ()

def checkQuantities (quantity : QuantityLedger) : Except String Unit :=
  if quantity.schema ≠ "TradeQuantityLedger.v2" then .error "trade quantity ledger is required"
  else if quantity.basis ≠ "normalized_unit_fixture_not_market_size" ∨
      quantity.availabilityStatus ≠ "unmodeled" then
    .error "trade quantity claims exceed normalized fixture evidence"
  else if quantity.entryQuantity ≤ 0 ∨ quantity.closedQuantity ≤ 0 ∨
      quantity.remainingQuantity < 0 ∨ (∃ leg ∈ quantity.closedLegs, leg ≤ 0) ∨
      1 / 10 ^ 9 < |quantity.closedLegs.sum - quantity.closedQuantity| ∨
      1 / 10 ^ 9 < |quantity.closedQuantity + quantity.remainingQuantity -
        quantity.entryQuantity| then
    .error "trade quantity ledger does not reconcile"
  else .ok ()

/-- The reconciliation of the fills of a trade; returns the gross return in percent. -/
def checkReconciliation (trade : Trade) (reconciliation : QuantityReconciliation) :
    Except String ℚ :=
  let quantity := trade.quantityLedger
  if reconciliation.schema ≠ "QuantityReconciliation.v2" then
    .error "invalid partial fill reconciliation"
  else do
    let canonical ← reconcilePartialFills reconciliation.entryQuantity
      (reconciliation.fills.map ReconciledFill.toFill) reconciliation.entryPrice
      reconciliation.side
    if canonical ≠ reconciliation then .error "partial fill reconciliation is not canonical"
    else if 1 / 10 ^ 9 < |canonical.entryQuantity - quantity.entryQuantity| ∨
        canonical.fills.map (fun fill => fill.quantity) ≠ quantity.closedLegs ∨
        1 / 10 ^ 9 < |canonical.closedQuantity - quantity.closedQuantity| ∨
        1 / 10 ^ 9 < |canonical.remainingQuantity - quantity.remainingQuantity| then
      .error "partial fill quantities do not match trade quantity ledger"
    else if canonical.closedCostBasis = 0 then .error "float division by zero"
    else if 1 / 10 ^ 9 < |canonical.costAmount / canonical.closedCostBasis * 100 -
        trade.costLedger.totalPct| then
      .error "partial fill costs do not match trade cost ledger"
    else
      match canonical.netReturnPct with
      | none => .error "float() argument must be a string or a real number, not 'NoneType'"
      | some netReturn =>
          if 1 / 10 ^ 3 < |netReturn - trade.netPct| then
            .error "partial fill return does not reconcile"
          else .ok (canonical.grossPnl / canonical.closedCostBasis * 100)

/-- The gross return in percent that the rounded prices of a trade give. -/
def checkPrices (trade : Trade) : Except String ℚ :=
  if trade.side = "long" ∨ trade.side = "short" then
    if trade.entry ≤ 0 ∨ trade.exit ≤ 0 then .error "trade prices must be positive and finite"
    else .ok (returnPct trade.side trade.entry trade.exit)
  else
    match trade.grossPct with
    | some gross => .ok gross
    | none => .error "trade gross return evidence is required"

/-- The gross return in percent, recomputed from the evidence of the trade. -/
def grossReturn (trade : Trade) : Except String ℚ :=
  match trade.fillReconciliation with
  | some reconciliation => checkReconciliation trade reconciliation
  | none =>
      if 0 < trade.partialExitFraction.getD 0 then
        .error "partial trade fill reconciliation is required"
      else checkPrices trade

def checkReturn (trade : Trade) (grossReturn : ℚ) : Except String Unit :=
  if (∃ gross ∈ trade.grossPct, 1 / 10 ^ 3 < |gross - grossReturn|) then
    .error "trade declared gross return does not reconcile"
  else if 1 / 10 ^ 3 < |grossReturn - trade.costLedger.totalPct - trade.netPct| then
    .error "trade net return does not reconcile to gross return and costs"
  else .ok ()

def validateTradeContract (trade : Trade) (expectedManifest : Manifest) : Except String Unit := do
  let manifest ← validateSimulatorAssumptionManifest sha256 trade.simulatorManifest
  if manifest.manifestId ≠ expectedManifest.manifestId then
    .error "trade simulator manifest mismatch"
  else if trade.simulatorModelId ≠ manifest.simulatorModelId then
    .error "trade simulator model mismatch"
  else if trade.unsupportedSimulatorDimensions ≠ manifest.unsupportedDimensions then
    .error "trade unsupported simulator dimensions mismatch"
  else do
    checkCosts manifest trade.costLedger
    checkQuantities trade.quantityLedger
    let gross ← grossReturn trade
    checkReturn trade gross

end ResearchLab.Simulation
