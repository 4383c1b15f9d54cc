import Mathlib
import ResearchLab.Foundation.JsonValues

/-!
# The paper signal contract

The record of a paper signal with all its fields, and the dictionary that the store writes of it.
Floats are exact rationals.
-/
namespace ResearchLab.PaperSignals
open Foundation Json

abbrev Value := Json ℚ

abbrev Dict := List (String × Value)

/-- `PaperActionSignal`. -/
structure PaperActionSignal where
  signalId : String
  source : String
  symbol : String
  okxInstId : String
  timeframe : String
  side : String
  setupFamily : String
  entryZone : List ℚ
  stopLoss : ℚ
  invalidationRule : String
  takeProfitPlan : List Dict
  maxHoldBars : ℤ
  maxHoldMinutes : ℤ
  reasonNow : String
  riskNotes : String := ""
  validatorContext : Dict := []
  outcomeMemoryContext : Dict := []
  chartContextRef : String := ""
  status : String := "candidate"
  createdAt : ℚ := 0
  expiresAt : ℚ := 0
  refPrice : ℚ := 0
  riskPct : ℚ := 0
  boundaryTs : ℤ := 0
  dataFingerprint : String := ""
  dedupKey : String := ""
  scannerEventId : String := ""
  dataPacketId : String := ""
  featurePacketId : String := ""
  researchEnvelopeId : String := ""
  outcomeEnvelopeId : String := ""
  setupCandidateId : String := ""
  sweepRunId : String := ""
  validationId : String := ""
  llmInterpretationRef : String := ""
  mode : String := "live"
  exitMode : String := "partial_be"
  outcome : Dict := []
  review : Dict := []

namespace PaperActionSignal

/-- `to_dict`. -/
def toDict (sig : PaperActionSignal) : Dict := [
  ("signal_id", .str sig.signalId),
  ("source", .str sig.source),
  ("symbol", .str sig.symbol),
  ("okx_inst_id", .str sig.okxInstId),
  ("timeframe", .str sig.timeframe),
  ("side", .str sig.side),
  ("setup_family", .str sig.setupFamily),
  ("entry_zone", .arr (sig.entryZone.map .float)),
  ("stop_loss", .float sig.stopLoss),
  ("invalidation_rule", .str sig.invalidationRule),
  ("take_profit_plan", .arr (sig.takeProfitPlan.map .obj)),
  ("max_hold_bars", .int sig.maxHoldBars),
  ("max_hold_minutes", .int sig.maxHoldMinutes),
  ("reason_now", .str sig.reasonNow),
  ("risk_notes", .str sig.riskNotes),
  ("validator_context", .obj sig.validatorContext),
  ("outcome_memory_context", .obj sig.outcomeMemoryContext),
  ("chart_context_ref", .str sig.chartContextRef),
  ("status", .str sig.status),
  ("created_at", .float sig.createdAt),
  ("expires_at", .float sig.expiresAt),
  ("ref_price", .float sig.refPrice),
  ("risk_pct", .float sig.riskPct),
  ("boundary_ts", .int sig.boundaryTs),
  ("data_fingerprint", .str sig.dataFingerprint),
  ("dedup_key", .str sig.dedupKey),
  ("scanner_event_id", .str sig.scannerEventId),
  ("data_packet_id", .str sig.dataPacketId),
  ("feature_packet_id", .str sig.featurePacketId),
  ("research_envelope_id", .str sig.researchEnvelopeId),
  ("outcome_envelope_id", .str sig.outcomeEnvelopeId),
  ("setup_candidate_id", .str sig.setupCandidateId),
  ("sweep_run_id", .str sig.sweepRunId),
  ("validation_id", .str sig.validationId),
  ("llm_interpretation_ref", .str sig.llmInterpretationRef),
  ("mode", .str sig.mode),
  ("exit_mode", .str sig.exitMode),
  ("outcome", .obj sig.outcome),
  ("review", .obj sig.review)]

end PaperActionSignal

end ResearchLab.PaperSignals
