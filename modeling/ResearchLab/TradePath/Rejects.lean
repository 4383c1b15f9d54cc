import Mathlib
import ResearchLab.Foundation.Grouping
import ResearchLab.Foundation.Rounding
import ResearchLab.Simulation.Trades

/-!
# Rejected candidates

The rejected rows of `unique_candidates`, and what `trade_path_diagnostics` says of each by the
run that its label names: facts about the trades, a sub-reason, and one row that carries both.
-/
namespace ResearchLab.TradePath
open Foundation Simulation

/-! ## Rows and runs -/

/-- The columns that are selected of a row of `unique_candidates`. -/
structure UniqueCandidate where
  ucKey : String
  symbol : Option String
  timeframe : Option String
  family : Option String
  paramsHash : Option String
  nTrades : ℤ
  avgNetPct : ℚ
  regimeBucket : String
  hardStatus : Option String
  validationStatus : Option String
  decision : Option String
  runDirLabel : Option String
  updatedAt : ℚ
  deriving DecidableEq

/-- `str(value or "")`. -/
def text (value : Option String) : String := value.getD ""

def UniqueCandidate.label (row : UniqueCandidate) : String := text row.runDirLabel

/-- `LIKE 'FAILED%'`, which takes no notice of the case. -/
def likeFailed (s : String) : Bool :=
  decide (List.Forall₂ (fun (p : Char × Char) c => c = p.1 ∨ c = p.2)
    ("FAILED".toList.zip "failed".toList) (s.toList.take 6))

/-- A lite reject or a hard failure. -/
def isRejected (row : UniqueCandidate) : Bool :=
  decide (row.decision = some "REJECT") || decide (row.validationStatus = some "REJECT") ||
    row.hardStatus.any likeFailed ||
    decide (row.hardStatus = some "HARD_REJECT" ∨ row.hardStatus = some "REGIME_ONLY")

/-- `_load_rejected_uc`; a missing database has no rows. -/
def loadRejectedUc (table : List UniqueCandidate) : List UniqueCandidate := table.filter isRejected

structure EntryTiming where
  avgMfePct : ℚ
  avgMaePct : ℚ
  avgCaptureRatio : ℚ
  lateEntryRate : ℚ
  deriving DecidableEq

/-- The metrics of a result that are read; there is no entry timing without trades. -/
structure Metrics where
  nTrades : ℤ
  avgNetPct : ℚ
  entryTiming : Option EntryTiming
  deriving DecidableEq

/-- A result of a run with parameters in `π`. -/
structure RunResult (π : Type) where
  symbol : String
  family : String
  params : π
  metrics : Metrics
  trades : List Trade
  deriving DecidableEq

/-- The results in `metrics.json` of the run of a label, if the file can be read. -/
abbrev Artifacts (π : Type) := String → Option (List (RunResult π))

variable {π : Type}

/-- The dictionary that `_index_run_results` fills: a later result takes the place of an earlier
one with the same parameters. -/
def indexResults (paramsHash : π → String) (results : List (RunResult π)) :
    String → Option (RunResult π) :=
  results.foldl (fun out res => Function.update out (paramsHash res.params) (some res))
    fun _ => none

def indexRunResults (paramsHash : π → String) (artifacts : Artifacts π) (label : String) :
    String → Option (RunResult π) :=
  if label = "" then fun _ => none
  else indexResults paramsHash ((artifacts label).getD [])

theorem indexResults_eq (paramsHash : π → String) (results : List (RunResult π)) (hash : String) :
    indexResults paramsHash results hash =
      (results.filter fun res => paramsHash res.params = hash).getLast? := by
  induction results using List.reverseRecOn with
  | nil => rfl
  | append_singleton results res ih =>
    rw [indexResults, List.foldl_append, List.foldl_cons, List.foldl_nil, List.filter_append,
      ← indexResults]
    obtain rfl | h := eq_or_ne (paramsHash res.params) hash
    · rw [Function.update_self]
      simp
    · rw [Function.update_of_ne h.symm, ih]
      simp [h]

/-! ## Facts of a trade path -/

/-- The name under which a simulator records an outcome. -/
def outcomeName : Outcome → String
  | .timeExit => "time_exit"
  | .stop => "stop"
  | .take => "take"
  | .trail => "trail"
  | .partialBe => "partial_be"

structure Facts where
  nTrades : ℤ
  avgNetPct : ℚ
  bestNetPct : ℚ
  worstNetPct : ℚ
  avgMfePct : ℚ
  avgMaePct : ℚ
  avgCaptureRatio : ℚ
  lateEntryRate : ℚ
  nTp : ℕ
  nSl : ℕ
  nTimeout : ℕ
  tpBeforeSlShare : ℚ
  tradesAvailable : Bool
  deriving DecidableEq

/-- `max` and `min` of the nets in percent, and 0 of none. -/
def bestNet : List ℚ → ℚ
  | [] => 0
  | net :: nets => roundTo 4 (nets.foldl max net)

def worstNet : List ℚ → ℚ
  | [] => 0
  | net :: nets => roundTo 4 (nets.foldl min net)

/-- The average as recorded by the trades, and as recorded by the metrics without them. -/
def averageNet (recorded : ℚ) (nets : List ℚ) : ℚ :=
  if nets = [] then recorded else roundTo 4 (nets.sum / nets.length)

/-- `_trade_path_facts`. -/
def tradePathFacts (res : RunResult π) : Facts :=
  let nets := res.trades.map (·.netPct)
  let outcomes := res.trades.map fun trade => outcomeName trade.outcome
  let timing := res.metrics.entryTiming.getD ⟨0, 0, 0, 0⟩
  let nTp := outcomes.countP fun o => o = "tp"
  { nTrades := if res.metrics.nTrades ≠ 0 then res.metrics.nTrades else res.trades.length
    avgNetPct := averageNet res.metrics.avgNetPct nets
    bestNetPct := bestNet nets
    worstNetPct := worstNet nets
    avgMfePct := timing.avgMfePct
    avgMaePct := timing.avgMaePct
    avgCaptureRatio := timing.avgCaptureRatio
    lateEntryRate := timing.lateEntryRate
    nTp
    nSl := outcomes.countP fun o => o = "stop" ∨ o = "sl"
    nTimeout := outcomes.countP fun o => o = "time_exit" ∨ o = "timeout"
    tpBeforeSlShare := if outcomes = [] then 0 else roundTo 4 (nTp / outcomes.length)
    tradesAvailable := decide (res.trades ≠ []) }

/-- The facts of a row whose run has no result for it. -/
def rowFacts (row : UniqueCandidate) : Facts :=
  ⟨row.nTrades, row.avgNetPct, 0, 0, 0, 0, 0, 0, 0, 0, 0, 0, false⟩

/-! ## Sub-reasons -/

/-- The costs of a round trip in percent. -/
def costPct : ℚ := 1 / 10

def captureLate : ℚ := 3 / 10

def thinMax : ℤ := 2

/-- Below it the split checks of the validator fail whatever the trades. -/
def powerFloor : ℤ := 10

inductive SubReason
  | missingOiMicro | insufficientData | wrongExit | wrongTimeframe | wrongCosts
  | tacticalCandidate | validatorTooStrict | confirmedBad | uncharacterized
  deriving DecidableEq

/-- The strategies of the registry that declare required data. -/
def requiredData : List (String × List String) :=
  [("oi_funding_squeeze", ["oi", "funding"]), ("oi_price_quadrant", ["oi"]),
    ("oi_price_quadrant_continuation", ["oi"]), ("oi_price_quadrant_trap_fade", ["oi"]),
    ("microstructure_confirmed_breakout", ["microstructure"])]

def oiMicroFamilies : List String :=
  (requiredData.filter fun f => f.2.any fun data => data ∈ ["oi", "microstructure"]).map Prod.fst

def classifySubreason (facts : Facts) (hardStatus family : String) : SubReason :=
  let n := facts.nTrades
  let avg := facts.avgNetPct
  let best := facts.bestNetPct
  let mfe := facts.avgMfePct
  let capture := facts.avgCaptureRatio
  if family ∈ oiMicroFamilies then .missingOiMicro
  else if n = 0 then .insufficientData
  -- the exit gave the move back
  else if facts.tradesAvailable ∧ avg + costPct < mfe ∧ capture < captureLate then .wrongExit
  -- a late entry on a real move
  else if facts.tradesAvailable ∧
      (1 / 2 ≤ facts.lateEntryRate ∨ (0 < capture ∧ capture < captureLate)) ∧ costPct < mfe then
    .wrongTimeframe
  else if hardStatus = "FAILED_COSTS" ∧ (costPct < mfe ∨ costPct < best) then .wrongCosts
  -- too thin for the validator
  else if n ≤ thinMax ∧ (0 < avg ∨ costPct < best) then .tacticalCandidate
  else if 3 ≤ n ∧ n < powerFloor ∧ 0 < avg then .validatorTooStrict
  else if powerFloor ≤ n ∧ avg ≤ 0 then .confirmedBad
  else .uncharacterized

def recyclable (reason : SubReason) : Bool :=
  decide (reason ∈ [SubReason.tacticalCandidate, .wrongExit, .wrongTimeframe, .wrongCosts,
    .missingOiMicro, .validatorTooStrict])

/-- A row of `characterize_rejects`. -/
structure Characterization where
  ucKey : String
  symbol : String
  timeframe : String
  family : String
  regimeBucket : String
  hardStatus : String
  rejectSubreason : SubReason
  recyclable : Bool
  facts : Facts
  deriving DecidableEq

/-- What a row is told with given facts. -/
def characterize (row : UniqueCandidate) (facts : Facts) : Characterization :=
  let hard := text row.hardStatus
  let sub := classifySubreason facts hard (text row.family)
  { ucKey := row.ucKey
    symbol := text row.symbol
    timeframe := text row.timeframe
    family := text row.family
    regimeBucket := row.regimeBucket
    hardStatus := hard
    rejectSubreason := sub
    recyclable := recyclable sub
    facts }

/-- The facts by the result that a row is joined with, and by the row alone without one. -/
def factsOf (row : UniqueCandidate) (result : Option (RunResult π)) : Facts :=
  result.elim (rowFacts row) tradePathFacts

end ResearchLab.TradePath
