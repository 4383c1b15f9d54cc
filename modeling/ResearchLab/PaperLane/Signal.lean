import Mathlib.Data.Rat.Floor
import ResearchLab.Simulation.Contract

/-!
# Paper action signals

The watch card of the paper lane, the gate that every card passes before it is stored, and the
outcome record that the lane keeps on it between two observations.
-/
namespace ResearchLab.PaperLane
open Foundation
open Simulation (CostLedger QuantityLedger QuantityReconciliation)

inductive SignalSource
  | farm | pfrFarm | scanner | main | manual | tactical
  deriving DecidableEq

inductive Side
  | long | short
  deriving DecidableEq

def Side.text : Side → String
  | .long => "long"
  | .short => "short"

inductive SignalStatus
  | candidate | armed | invalidated | openedPaper | closedPaper | expired | reviewed
  deriving DecidableEq

inductive LaneResult
  | pendingArm | pendingOpen | expiredNoEntry | stop | partialBe | simpleBe | take | timeout
  deriving DecidableEq

/-- The outcome dictionary of a signal; a key that is absent is `none`. -/
structure SignalOutcome where
  lifecycleSchema : Option String := none
  result : Option LaneResult := none
  lastObservedBarTs : Option ℤ := none
  lastObservedClose : Option ℚ := none
  observedBarsTotal : Option ℤ := none
  freshBarsThisCycle : Option ℤ := none
  newBars : Option ℤ := none
  openIndex : Option ℤ := none
  barsWaited : Option ℤ := none
  favWaitPct : Option ℚ := none
  ranAway : Option Bool := none
  openedAtBarTs : Option ℤ := none
  entry : Option ℚ := none
  effStop : Option ℚ := none
  partialDone : Option Bool := none
  beDone : Option Bool := none
  bankedPct : Option ℚ := none
  mfePct : Option ℚ := none
  maePct : Option ℚ := none
  barsHeld : Option ℤ := none
  exit : Option ℚ := none
  grossPct : Option ℚ := none
  netPct : Option ℚ := none
  feesBpsRoundTrip : Option ℚ := none
  slippageBpsRoundTrip : Option ℚ := none
  costLedger : Option CostLedger := none
  quantityLedger : Option QuantityLedger := none
  fillReconciliation : Option QuantityReconciliation := none
  reachedTp1 : Option Bool := none
  deriving DecidableEq

/-- A level of the take-profit plan. -/
structure TakeProfit where
  label : String
  price : ℚ
  sizeFrac : ℚ
  deriving DecidableEq

/-- `PaperActionSignal`: the fields that the gate and the lane read. -/
structure PaperActionSignal where
  source : SignalSource
  symbol : String
  okxInstId : String
  timeframe : String
  side : Side
  setupFamily : String
  entryZone : ℚ × ℚ
  stopLoss : ℚ
  invalidationRule : String
  takeProfitPlan : List TakeProfit
  maxHoldBars : ℤ
  reasonNow : String
  /-- The key of `validator_context` that the lane reads. -/
  entryTrigger : Option String := none
  status : SignalStatus := .candidate
  createdAt : ℚ := 0
  expiresAt : ℚ := 0
  riskPct : ℚ := 0
  boundaryTs : ℤ := 0
  exitMode : String := "partial_be"
  outcome : SignalOutcome := {}
  deriving DecidableEq

/-! ## The gate -/

/-- The problems that the gate reports, with what their texts quote. -/
inductive Problem
  | missingIdentity
  | badEntryZone (lo hi : ℚ)
  | stopNotPositive
  | longStopNotBelow
  | shortStopNotAbove
  | emptyTakeProfitPlan
  | longTpNotAbove (price : ℚ)
  | shortTpNotBelow (price : ℚ)
  | maxHoldNotPositive
  | expiresBeforeCreated
  | reasonRequired
  | invalidationRequired
  deriving DecidableEq

def problemIf (condition : Prop) [Decidable condition] (problem : Problem) : List Problem :=
  if condition then [problem] else []

theorem problemIf_eq_nil {condition : Prop} [Decidable condition] {problem : Problem} :
    problemIf condition problem = [] ↔ ¬ condition := by
  unfold problemIf
  split_ifs with h <;> simp [h]

/-- `validate_signal`; source, side and status are in their tables by type. -/
def validateSignal (sig : PaperActionSignal) : List Problem :=
  let lo := sig.entryZone.1
  let hi := sig.entryZone.2
  problemIf (sig.symbol = "" ∨ sig.okxInstId = "" ∨ sig.timeframe = "" ∨ sig.setupFamily = "")
      .missingIdentity ++
    problemIf (lo ≤ 0 ∨ hi ≤ 0 ∨ hi < lo) (.badEntryZone lo hi) ++
    problemIf (sig.stopLoss ≤ 0) .stopNotPositive ++
    problemIf (sig.side = .long ∧ lo ≤ sig.stopLoss) .longStopNotBelow ++
    problemIf (sig.side = .short ∧ sig.stopLoss ≤ hi) .shortStopNotAbove ++
    problemIf (sig.takeProfitPlan = []) .emptyTakeProfitPlan ++
    sig.takeProfitPlan.flatMap (fun tp =>
      problemIf (sig.side = .long ∧ tp.price ≤ hi) (.longTpNotAbove tp.price) ++
        problemIf (sig.side = .short ∧ lo ≤ tp.price) (.shortTpNotBelow tp.price)) ++
    problemIf (sig.maxHoldBars ≤ 0) .maxHoldNotPositive ++
    problemIf (sig.expiresAt ≠ 0 ∧ sig.createdAt ≠ 0 ∧ sig.expiresAt ≤ sig.createdAt)
      .expiresBeforeCreated ++
    problemIf (sig.reasonNow = "") .reasonRequired ++
    problemIf (sig.invalidationRule = "") .invalidationRequired

/-- What the lane needs of a card that passed the gate. -/
structure Validated (sig : PaperActionSignal) : Prop where
  lo_pos : 0 < sig.entryZone.1
  hi_pos : 0 < sig.entryZone.2
  stop_pos : 0 < sig.stopLoss
  plan_nonempty : sig.takeProfitPlan ≠ []
  long_tp : sig.side = .long → ∀ tp ∈ sig.takeProfitPlan, 0 < tp.price

theorem validated_of_validateSignal {sig : PaperActionSignal} (h : validateSignal sig = []) :
    Validated sig := by
  simp only [validateSignal, List.append_eq_nil_iff, problemIf_eq_nil, not_or, not_le,
    List.flatMap_eq_nil_iff] at h
  obtain ⟨⟨⟨⟨⟨⟨⟨⟨⟨⟨-, hzone⟩, hstop⟩, -⟩, -⟩, hplan⟩, htps⟩, -⟩, -⟩, -⟩, -⟩ := h
  refine ⟨hzone.1, hzone.2.1, hstop, hplan, fun hlong tp htp => ?_⟩
  have habove : ¬ tp.price ≤ sig.entryZone.2 := fun hle => (htps tp htp).1 ⟨hlong, hle⟩
  exact hzone.2.1.trans (not_le.1 habove)

end ResearchLab.PaperLane
