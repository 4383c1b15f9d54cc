import Mathlib
import ResearchLab.Foundation.Checks
import ResearchLab.Simulation.Contract

/-!
# The canonical manifests

A manifest is accepted when it says what the canonical manifest of its model says and carries
the identity of its own content.
-/
namespace ResearchLab.Simulation
open Foundation

variable (sha256 : String → String)

def manifestSchema : String := "SimulatorAssumptionManifest.v2"

def buildSimulatorAssumptionManifest : Manifest :=
  bindManifest sha256
    { schema := manifestSchema
      simulatorModelId := "ohlc_bar_plausibility_scenario.v2"
      evidenceTier := "bar_plausibility_scenario"
      policies :=
        [("entry", "next_bar_open_fixture"), ("gap", "adverse_first_tradable_open"),
          ("same_bar", "explicit_scenario"), ("dual_touch", "scenario_bounds_no_scalar_order"),
          ("costs", "separate_components"), ("liquidity", "declared_available_quantity_only"),
          ("funding", "timestamped_events_only"),
          ("account", "unavailable_without_chronological_allocation")]
      unsupportedDimensions :=
        ["observed_intrabar_event_order", "queue_priority", "unmodeled_depth",
          "unmodeled_impact", "observed_fill_calibration", "shared_account_capacity"]
      claimCeiling := "bar_plausibility_scenario"
      manifestId := "" }

def incrementalPaperLaneManifest : Manifest :=
  bindManifest sha256
    { schema := manifestSchema
      simulatorModelId := "incremental_paper_ohlc_lane.v1"
      evidenceTier := "deterministic_fixture"
      policies :=
        [("entry", "range_touch_fixture"), ("gap", "exact_trigger_fixture"),
          ("same_bar", "entry_bar_exits_deferred"),
          ("dual_touch", "stop_first_fixture_after_entry_bar"),
          ("costs", "declared_paper_cost_assumptions"),
          ("liquidity", "spread_volume_gate_not_fill_quantity"), ("funding", "not_modeled"),
          ("account", "paper_signal_independent_outcomes")]
      unsupportedDimensions :=
        ["entry_bar_post_fill_event_order", "gap_executable_price", "fill_quantity",
          "partial_fill", "queue_priority", "market_impact", "funding_cashflow",
          "shared_account_capacity", "observed_fill_calibration"]
      claimCeiling := "deterministic_fixture"
      manifestId := "" }

/-- The canonical manifest of a known model. -/
def canonicalManifest (modelId : String) : Option Manifest :=
  if modelId = "deterministic_ohlc_fixture.v1" then some (legacyFixtureManifest sha256)
  else if modelId = "ohlc_bar_plausibility_scenario.v2" then
    some (buildSimulatorAssumptionManifest sha256)
  else if modelId = "incremental_paper_ohlc_lane.v1" then
    some (incrementalPaperLaneManifest sha256)
  else none

/-- Equality of the identity payloads; the order of the policies does not count. -/
def SamePayload (m m' : Manifest) : Prop :=
  m.schema = m'.schema ∧ m.simulatorModelId = m'.simulatorModelId ∧
    m.evidenceTier = m'.evidenceTier ∧ m.policies.Perm m'.policies ∧
    m.unsupportedDimensions = m'.unsupportedDimensions ∧ m.claimCeiling = m'.claimCeiling

instance (m m' : Manifest) : Decidable (SamePayload m m') := inferInstanceAs (Decidable (_ ∧ _))

def validateSimulatorAssumptionManifest (manifest : Manifest) : Except String Manifest :=
  if manifest.schema ≠ manifestSchema then .error "unsupported simulator manifest schema"
  else if manifest.simulatorModelId = "" ∨ manifest.evidenceTier = "" then
    .error "simulator model identity and evidence tier are required"
  else
    match canonicalManifest sha256 manifest.simulatorModelId with
    | none => .error "unknown simulator model identity"
    | some canonical =>
        if ¬ SamePayload manifest canonical then
          .error "simulator manifest differs from canonical model contract"
        else if manifest.manifestId ≠ manifestId sha256 manifest then
          .error "simulator manifest identity mismatch"
        else .ok manifest

variable {sha256}

theorem samePayload_refl (m : Manifest) : SamePayload m m :=
  ⟨rfl, rfl, rfl, List.Perm.refl _, rfl, rfl⟩

theorem validate_legacyFixtureManifest :
    validateSimulatorAssumptionManifest sha256 (legacyFixtureManifest sha256) =
      .ok (legacyFixtureManifest sha256) := by
  have hschema : (legacyFixtureManifest sha256).schema = manifestSchema := rfl
  have hmodel : (legacyFixtureManifest sha256).simulatorModelId =
      "deterministic_ohlc_fixture.v1" := rfl
  have htier : (legacyFixtureManifest sha256).evidenceTier = "deterministic_fixture" := rfl
  have hid : (legacyFixtureManifest sha256).manifestId =
      manifestId sha256 (legacyFixtureManifest sha256) := rfl
  simp [validateSimulatorAssumptionManifest, canonicalManifest, hschema, hmodel, htier,
    samePayload_refl, ← hid]

end ResearchLab.Simulation
