import Mathlib
import ResearchLab.Foundation.Rounding
import ResearchLab.PaperSignals.Contract

/-!
# Training rows

The row of the training export for one paper signal, from the signal and the documents that
refer to it.
-/
namespace ResearchLab.TrainingExport
open Foundation Json PaperSignals

/-- What the export takes from Python's library: `str` of a composite value, `int`, `float`
(none where it raises), `text.strip().lower()` and the digests of a text and of a row. -/
structure Python where
  repr : Value → String
  int : Value → Except String ℤ
  float : Value → Option ℚ
  lowered : String → String
  hashText : String → String
  evidenceContentHash : Dict → String

/-! ## Evidence taxonomy -/

inductive EvidenceKind
  | marketOutcome | operationalIncident
  deriving DecidableEq

def EvidenceKind.text : EvidenceKind → String
  | .marketOutcome => "market_outcome"
  | .operationalIncident => "operational_incident"

def technicalResults : List String := [
  "provider_error", "data_gap", "genuine_no_market_data", "no_data", "provider_unavailable",
  "delivery_error", "timeout", "error", "failed"]

def technicalDiagnoses : List String := ["data_issue", "provider_error", "data_gap"]

def technicalReasonMarkers : List String := [
  "no_data_repeated", "provider_error", "provider_failure", "data_gap", "missing_market_data"]

section
variable (py : Python)

/-- `str(row.get(key) or "")`. -/
def text (row : Dict) (key : String) : String := textOr py.repr (field row key)

def evidenceKind (row : Dict) : EvidenceKind :=
  let reason := py.lowered (textOr py.repr ((field row "reason").orElse
    (field row "terminal_reason")))
  if py.lowered (text py row "outcome_evidence_kind") = EvidenceKind.operationalIncident.text then
    .operationalIncident
  else if py.lowered (text py row "result") ∈ technicalResults ∨
      py.lowered (text py row "status") ∈ technicalResults ∨
      py.lowered (text py row "diagnosis") ∈ technicalDiagnoses ∨
      py.lowered (text py row "market_data_status") ∈ technicalResults ∨
      (∃ marker ∈ technicalReasonMarkers, marker.toList <:+: reason.toList) then
    .operationalIncident
  else .marketOutcome

def isMarketOutcome (row : Dict) : Bool := decide (evidenceKind py row = .marketOutcome)

end

/-! ## Trade math -/

def midpoint : List ℚ → ℚ
  | [low, high] => roundTo 10 ((low + high) / 2)
  | _ => 0

def firstTp (py : Python) : List Dict → ℚ
  | [] => 0
  | level :: _ => (py.float ((field level "price").orElse (.float 0))).getD 0

def stopDistance (entry stop : ℚ) : ℚ := |entry - stop|

def riskPct (entry stop : ℚ) : ℚ :=
  if entry ≤ 0 then 0 else roundTo 6 (stopDistance entry stop / entry * 100)

def rewardR (entry stop target : ℚ) (side : String) : ℚ :=
  let risk := stopDistance entry stop
  if risk ≤ 0 then 0
  else roundTo 6 ((if side = "long" then target - entry else entry - target) / risk)

/-- `CostAssumptions().to_dict()`. -/
def costAssumptions : Dict := [
  ("fees_bps_round_trip", .float 7), ("slippage_bps_round_trip", .float 3)]

def geometry (py : Python) (entryZone : List ℚ) (stop : ℚ) (takeProfitPlan : List Dict)
    (side : String) : Dict :=
  let entry := midpoint entryZone
  let tp1 := firstTp py takeProfitPlan
  [("entry_mid", .float entry),
    ("stop_distance", .float (roundTo 10 (stopDistance entry stop))),
    ("risk_pct", .float (riskPct entry stop)),
    ("tp1", .float tp1),
    ("rr_tp1", .float (if tp1 = 0 then 0 else rewardR entry stop tp1 side)),
    ("cost_assumptions", .obj costAssumptions)]

/-! ## The row -/

def terminalStatuses : List String := ["closed_paper", "expired", "invalidated", "reviewed"]

def trainingRowId (sig : PaperActionSignal) : String := "training_" ++ sig.signalId

/-- The documents that refer to a signal; `{}` where there is none. -/
structure Refs where
  telegramCard : Dict
  paperTrade : Dict
  calculatorAdvice : Dict
  adaptivePolicy : Dict
  outcomeReview : Dict := []

/-- `training_row`; a conversion that raises raises here. -/
def trainingRow (py : Python) (sig : PaperActionSignal) (refs : Refs) : Except String Dict := do
  let outcome := sig.outcome
  let review := sig.review
  let geom := geometry py sig.entryZone sig.stopLoss sig.takeProfitPlan sig.side
  let card := refs.telegramCard
  let trade := refs.paperTrade
  let advice := refs.calculatorAdvice
  let policy := refs.adaptivePolicy
  let reviewRef := refs.outcomeReview
  let reviewPayload := membersOr (field reviewRef "payload")
  let paperAccount := membersOr (field trade "paper_account")
  let cardText := text py card "text"
  let calculatorAdviceId := textOr py.repr
    ((field advice "calculator_advice_id").orElse (field advice "advisor_ref"))
  let llmRef := if calculatorAdviceId = "" then sig.llmInterpretationRef else calculatorAdviceId
  let context := sig.validatorContext
  let costs := membersOr (field geom "cost_assumptions")
  let effectiveNTrials ← py.int ((field context "effective_n_trials").orElse (.int 0))
  let policyReasons ← elements ((field policy "reason_codes").orElse (.arr []))
  return [
    ("schema", .str "TrainingRow.v2"),
    ("schema_compat",
      .arr [.str "PaperSignalTrainingRow.v1", .str "PaperSignalTrainingRow.v2"]),
    ("training_row_id", .str (trainingRowId sig)),
    ("signal_id", .str sig.signalId),
    ("paper_signal_id", .str sig.signalId),
    ("dedup_key", .str sig.dedupKey),
    ("data_fingerprint", .str sig.dataFingerprint),
    ("scanner_event_id", .str sig.scannerEventId),
    ("data_packet_id", .str sig.dataPacketId),
    ("feature_packet_id", .str sig.featurePacketId),
    ("setup_candidate_id", .str sig.setupCandidateId),
    ("sweep_run_id", .str sig.sweepRunId),
    ("validation_id", .str sig.validationId),
    ("ready_strategy_id", .str (text py context "ready_strategy_id")),
    ("setup_id", .str (text py context "setup_id")),
    ("candidate_id", .str (text py context "candidate_id")),
    ("source_validation_verdict", .str (text py context "source_validation_verdict")),
    ("search_family_id", .str (text py context "search_family_id")),
    ("search_trial_id", .str (text py context "search_trial_id")),
    ("effective_n_trials", .int effectiveNTrials),
    ("farm_geometry_profile_id", .str (textOr py.repr
      ((field context "geometry_profile_id").orElse (field trade "farm_geometry_profile_id")))),
    ("farm_geometry_profile_reason", .str (textOr py.repr
      ((field context "geometry_profile_reason").orElse
        (field trade "farm_geometry_profile_reason")))),
    ("farm_geometry_entry_scale",
      (field context "geometry_entry_scale").orElse (field trade "farm_geometry_entry_scale")),
    ("farm_geometry_stop_scale",
      (field context "geometry_stop_scale").orElse (field trade "farm_geometry_stop_scale")),
    ("farm_geometry_tp_scale",
      (field context "geometry_tp_scale").orElse (field trade "farm_geometry_tp_scale")),
    ("farm_geometry_hold_scale",
      (field context "geometry_hold_scale").orElse (field trade "farm_geometry_hold_scale")),
    ("telegram_card_id", .str (text py card "telegram_card_id")),
    ("paper_trade_id", .str (text py trade "paper_trade_id")),
    ("paper_product_trade_id", .str (text py trade "paper_product_trade_id")),
    ("main_paper_status", .str (text py trade "status")),
    ("main_paper_runtime_id", .str (text py trade "runtime_id")),
    ("paper_generation_run_id", .str (text py trade "paper_generation_run_id")),
    ("paper_subject_generation_id", .str (text py trade "paper_subject_generation_id")),
    ("terminal_lifecycle_event_id", .str (text py trade "terminal_lifecycle_event_id")),
    ("account_generation_id", .str (text py trade "account_generation_id")),
    ("immutable_terminal_evidence", .bool
      ((field trade "paper_generation_run_id").truthy &&
        (field trade "paper_subject_generation_id").truthy &&
        (field trade "terminal_lifecycle_event_id").truthy &&
        (field trade "account_generation_id").truthy)),
    ("outcome_id",
      .str (if sig.status ∈ terminalStatuses then "outcome_" ++ sig.signalId else "")),
    ("source", .str sig.source),
    ("symbol", .str sig.symbol),
    ("okx_inst_id", .str sig.okxInstId),
    ("timeframe", .str sig.timeframe),
    ("family", .str sig.setupFamily),
    ("setup_family", .str sig.setupFamily),
    ("side", .str sig.side),
    ("status", .str sig.status),
    ("mode", .str sig.mode),
    ("exit_mode", .str sig.exitMode),
    ("created_at", .float sig.createdAt),
    ("boundary_ts", .int sig.boundaryTs),
    ("entry_mid", .float (midpoint sig.entryZone)),
    ("entry_zone_low", .float (if sig.entryZone.length = 2 then sig.entryZone.getD 0 0 else 0)),
    ("entry_zone_high", .float (if sig.entryZone.length = 2 then sig.entryZone.getD 1 0 else 0)),
    ("stop_loss", .float sig.stopLoss),
    ("tp1", .float (firstTp py sig.takeProfitPlan)),
    ("geometry", .obj geom),
    ("risk_pct", .float sig.riskPct),
    ("max_hold_bars", .int sig.maxHoldBars),
    ("max_hold_minutes", .int sig.maxHoldMinutes),
    ("result", .str (text py outcome "result")),
    ("outcome_evidence_kind", .str (evidenceKind py (setKey "market_data_status"
      (field trade "status") (setKey "diagnosis" (field review "diagnosis") outcome))).text),
    ("lifecycle_schema",
      .str (pyStr py.repr ((field outcome "lifecycle_schema").orElse (.str "legacy")))),
    ("observed_entry", field outcome "entry"),
    ("observed_exit", field outcome "exit"),
    ("opened_at_bar_ts", field outcome "opened_at_bar_ts"),
    ("last_observed_bar_ts", field outcome "last_observed_bar_ts"),
    ("bars_waited", field outcome "bars_waited"),
    ("bars_held", field outcome "bars_held"),
    ("reached_tp1", .bool (field outcome "reached_tp1").truthy),
    ("partial_done", .bool (field outcome "partial_done").truthy),
    ("banked_pct", field outcome "banked_pct"),
    ("gross_pct", field outcome "gross_pct"),
    ("net_pct", field outcome "net_pct"),
    ("mfe_pct", field outcome "mfe_pct"),
    ("mae_pct", field outcome "mae_pct"),
    ("capture", (field outcome "capture").orElse (field review "capture_of_mfe")),
    ("fees_bps_round_trip",
      (field outcome "fees_bps_round_trip").orElse (field costs "fees_bps_round_trip")),
    ("slippage_bps_round_trip",
      (field outcome "slippage_bps_round_trip").orElse (field costs "slippage_bps_round_trip")),
    ("paper_deposit_usdt", field paperAccount "deposit_usdt"),
    ("paper_position_margin_usdt", field paperAccount "position_margin_usdt"),
    ("paper_leverage", field paperAccount "leverage"),
    ("paper_notional_usdt", field paperAccount "notional_usdt"),
    ("paper_pnl_usdt", field paperAccount "pnl_usdt"),
    ("paper_equity_after_usdt", field paperAccount "equity_after_usdt"),
    ("net_r", field review "net_r"),
    ("diagnosis", .str (text py review "diagnosis")),
    ("reason_now", .str sig.reasonNow),
    ("invalidation_rule", .str sig.invalidationRule),
    ("chart_context_ref", .str sig.chartContextRef),
    ("llm_interpretation_ref", .str llmRef),
    ("calculator_advice_id", .str calculatorAdviceId),
    ("adaptive_policy_id", .str (text py policy "policy_id")),
    ("adaptive_execution_profile", .str (text py policy "execution_profile")),
    ("adaptive_entry_profile", .str (text py policy "entry_profile")),
    ("adaptive_exit_profile", .str (text py policy "exit_profile")),
    ("adaptive_stop_profile", .str (text py policy "stop_profile")),
    ("adaptive_max_hold_profile", .str (text py policy "max_hold_profile")),
    ("adaptive_regime_hint", .str (text py policy "regime_hint")),
    ("adaptive_policy_confidence", field policy "confidence"),
    ("adaptive_policy_reasons", .arr policyReasons),
    ("outcome_review_id", .str (text py reviewRef "review_id")),
    ("outcome_review_accepted", .bool (field reviewRef "accepted").truthy),
    ("outcome_learning_review_kind", .str (text py reviewPayload "review_kind")),
    ("outcome_learning_bucket", .str (text py reviewPayload "outcome_bucket")),
    ("outcome_learning_actionability", .str (text py reviewPayload "actionability")),
    ("llm_provider", .str (text py advice "provider")),
    ("llm_model", .str (text py advice "model")),
    ("prompt_version", .str (text py advice "prompt_version")),
    ("prompt_hash", .str (text py advice "prompt_hash")),
    ("final_card_text", .str cardText),
    ("final_card_hash", .str (if cardText = "" then "" else py.hashText cardText)),
    ("paper_only", .bool true),
    ("execution_allowed", .bool false)]

end ResearchLab.TrainingExport
