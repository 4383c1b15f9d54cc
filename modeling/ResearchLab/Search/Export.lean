import Mathlib
import ResearchLab.Search.Evidence
import ResearchLab.Simulation.Validation

/-!
# The trial count from the exporter to the bridge

`hard_validation_export` prepares candidates from completed experiments and writes down how many
variants were evaluated; `honest_backtest_bridge` recomputes the count from the evidence and
compares.
-/
namespace ResearchLab.Search
open Foundation Simulation

/-- What is read of the metrics of a result or of a candidate. -/
structure Metrics (π : Type) where
  searchTrialEvidence : Option (Evidence π)
  runtime : Option RuntimeMeta
  nVariantsEvaluated : Stated
  variantCount : Stated
  nTrials : Stated
  nTrades : ℤ
  dataFingerprint : String
  paramsHash : String
  returnsBasis : String
  costsApplied : Option Bool
  simulatorManifest : Option Manifest
  simulatorModelId : Option String

/-- A row of `results` in `metrics.json`. -/
structure Result (π : Type) where
  runId : String
  symbol : String
  family : String
  params : π
  metrics : Metrics π
  trades : List Trade

structure MetricsFile (π : Type) where
  feesBps : Option ℚ
  slippageBps : Option ℚ
  searchTrialEvidenceId : String
  multipleTestingFamilyHash : String
  runtime : RuntimeMeta
  results : List (Result π)

/-- The directory of a completed experiment: its `metrics.json` and `search_trial_evidence.json`,
as far as they can be read. -/
structure CompletedRun (π : Type) where
  metrics : Option (MetricsFile π)
  evidence : Option (Evidence π)

/-- The summary that a registry keeps of the metrics of a candidate. -/
structure MetricsSummary where
  nTrades : ℤ
  dataFingerprint : String
  paramsHash : String

inductive LiteStatus | forwardPaper | regimeSpecific | other
  deriving DecidableEq

structure Entry (π : Type) where
  candidateId : String
  sourceCandidateId : String
  ucKey : String
  experimentId : String
  artifactLabel : String
  symbol : String
  timeframe : String
  strategyId : String
  paramsHash : String
  dataFingerprint : String
  params : Option π
  feesBps : Option ℚ
  slippageBps : Option ℚ
  metricsSummary : MetricsSummary
  validationStatus : LiteStatus
  createdAt : String

def contractVersion : String := "1.3.0"

structure Candidate (π : Type) where
  candidateId : String
  sourceRunId : String
  symbol : String
  timeframe : String
  strategyId : String
  params : π
  feesBps : ℚ
  slippageBps : ℚ
  metrics : Metrics π
  trades : List Trade
  simulatorManifest : Manifest
  unsupportedSimulatorDimensions : List String
  contractVersion : String

/-- What the exporter reads: the run directories that a pattern finds, in the order in which they
are tried, and what it takes from candle data. -/
structure Exporter (π : Type) where
  sha256 : String → String
  glob : String → List (CompletedRun π)
  paramsHash : π → String
  rebuildTrades : Result π → List Trade
  recoverTimeframe : Metrics π → Entry π → String

/-- The arguments of `prepare_requests`. -/
structure Selection where
  limit : ℕ
  statusFilter : Option LiteStatus
  includeRegimeSpecific : Bool
  since : String
  candidateId : String

variable {π : Type}

/-! ## The entries -/

def eligible (selection : Selection) (entry : Entry π) : Bool :=
  (match selection.statusFilter with
    | some status => entry.validationStatus = status
    | none => entry.validationStatus = .forwardPaper ||
        entry.validationStatus = .regimeSpecific && selection.includeRegimeSpecific) &&
  (selection.candidateId = "" || entry.candidateId = selection.candidateId) &&
  (selection.since = "" || selection.since ≤ entry.createdAt)

def Entry.key (entry : Entry π) : List String :=
  [entry.candidateId, entry.symbol, entry.strategyId, entry.timeframe, entry.paramsHash,
    entry.dataFingerprint]

/-- The first entry of each key. -/
def deduplicate (entries : List (Entry π)) : List (Entry π) :=
  entries.foldl
    (fun seen entry => if ∃ e ∈ seen, e.key = entry.key then seen else seen ++ [entry]) []

/-! ## The metrics of an experiment -/

/-- `.replace("-", "_").replace("/", "_").upper()`. -/
def normalizeSymbol (symbol : String) : String :=
  symbol.map fun c => if c = '-' ∨ c = '/' then '_' else c.toUpper

def MetricsSummary.metrics (summary : MetricsSummary) : Metrics π where
  searchTrialEvidence := none
  runtime := none
  nVariantsEvaluated := .absent
  variantCount := .absent
  nTrials := .absent
  nTrades := summary.nTrades
  dataFingerprint := summary.dataFingerprint
  paramsHash := summary.paramsHash
  returnsBasis := ""
  costsApplied := none
  simulatorManifest := none
  simulatorModelId := none

/-- The metrics that were found for an entry, the trades under them and the costs of the run. -/
structure Loaded (π : Type) where
  metrics : Metrics π
  params : Option π
  trades : List Trade
  feesBps : Option ℚ
  slippageBps : Option ℚ

section
variable [DecidableEq π] (L : Laboratory π) (X : Exporter π)

/-- Whether a result is the one that an entry names. -/
def isWanted (entry : Entry π) (r : Result π) : Bool :=
  let exactId := r.runId = entry.candidateId ||
    entry.sourceCandidateId ≠ "" && r.runId = entry.sourceCandidateId
  let exactHash := entry.paramsHash ≠ "" && X.paramsHash r.params = entry.paramsHash
  let exactScope :=
    (normalizeSymbol entry.symbol = "" || normalizeSymbol r.symbol = normalizeSymbol entry.symbol)
      && (entry.strategyId = "" || r.family = entry.strategyId)
  exactScope && (exactId || exactHash)

/-- The metrics of a result under the context of its run. -/
def resultMetrics (data : MetricsFile π) (evidence : Evidence π) (counts : Counts) (r : Result π) :
    Loaded π where
  metrics := { r.metrics with
    searchTrialEvidence := some evidence
    runtime := some data.runtime
    nVariantsEvaluated := .number counts.effectiveNTrials }
  params := some r.params
  trades := if r.trades = [] ∧ 0 < r.metrics.nTrades then X.rebuildTrades r else r.trades
  feesBps := data.feesBps
  slippageBps := data.slippageBps

/-- What a run directory says to an entry: to try the next one, that there is no candidate, or the
metrics. -/
inductive Lookup (π : Type)
  | next
  | rejected
  | found (loaded : Loaded π)

def lookupRun (entry : Entry π) (run : CompletedRun π) : Lookup π :=
  match run.metrics with
  | none => .next
  | some data =>
      match run.evidence with
      | none => .rejected
      | some evidence =>
          match validateSearchTrialEvidence L evidence true with
          | .error _ => .rejected
          | .ok counts =>
              if data.searchTrialEvidenceId ≠ evidence.searchTrialEvidenceId ∨
                  data.multipleTestingFamilyHash ≠ evidence.multipleTestingFamilyHash then
                .rejected
              else
                match data.results.find? (isWanted X entry) with
                | some r =>
                    let loaded := resultMetrics X data evidence counts r
                    .found { loaded with
                      metrics := { loaded.metrics with
                        dataFingerprint :=
                          if entry.dataFingerprint = "" then loaded.metrics.dataFingerprint
                          else entry.dataFingerprint } }
                | none =>
                    match data.results with
                    | r :: _ =>
                        if entry.ucKey = "" then .found (resultMetrics X data evidence counts r)
                        else .next
                    | [] => .next

/-- `for run_dir in ordered_candidates`; `none` is a fall through to the summary. -/
def lookupRuns (entry : Entry π) : List (CompletedRun π) → Option (Option (Loaded π))
  | [] => none
  | run :: runs =>
      match lookupRun L X entry run with
      | .next => lookupRuns entry runs
      | .rejected => some none
      | .found loaded => some (some loaded)

/-- The run directories of an entry. -/
def runDirectories (entry : Entry π) : List (CompletedRun π) :=
  if entry.artifactLabel = "" then []
  else if X.glob entry.artifactLabel = [] then X.glob entry.experimentId
  else X.glob entry.artifactLabel

/-- `_load_experiment_metrics`. -/
def loadExperimentMetrics (entry : Entry π) : Option (Loaded π) :=
  match lookupRuns L X entry (runDirectories X entry) with
  | some outcome => outcome
  | none => some {
      metrics := entry.metricsSummary.metrics
      params := none
      trades := []
      feesBps := none
      slippageBps := none }

/-! ## The candidates -/

/-- `_build_candidate`. -/
def buildCandidate (entry : Entry π) : Option (Candidate π) := do
  let loaded ← loadExperimentMetrics L X entry
  let evidence ← loaded.metrics.searchTrialEvidence
  let _ ← (validateSearchTrialEvidence L evidence true).toOption
  let manifest ← loaded.metrics.simulatorManifest <|>
    loaded.trades.head?.map fun trade => trade.simulatorManifest
  let _ ← (validateSimulatorAssumptionManifest X.sha256 manifest).toOption
  let _ ← (loaded.trades.forM fun trade => validateTradeContract X.sha256 trade manifest).toOption
  let params ← entry.params <|> loaded.params
  let metrics := { loaded.metrics with
    returnsBasis := "net_pct"
    costsApplied := some true
    dataFingerprint :=
      if loaded.metrics.dataFingerprint = "" then entry.dataFingerprint
      else loaded.metrics.dataFingerprint
    paramsHash :=
      if loaded.metrics.paramsHash = "" then entry.paramsHash else loaded.metrics.paramsHash
    simulatorManifest := some manifest
    simulatorModelId := some manifest.simulatorModelId }
  return {
    candidateId := entry.candidateId
    sourceRunId := entry.experimentId
    symbol := entry.symbol
    timeframe := X.recoverTimeframe metrics entry
    strategyId := entry.strategyId
    params := params
    feesBps := entry.feesBps.getD (loaded.feesBps.getD 7)
    slippageBps := entry.slippageBps.getD (loaded.slippageBps.getD 3)
    metrics := metrics
    trades := loaded.trades
    simulatorManifest := manifest
    unsupportedSimulatorDimensions := manifest.unsupportedDimensions
    contractVersion := contractVersion }

/-- `prepare_requests`: the candidates of the eligible entries. -/
def prepareRequests (selection : Selection) (entries : List (Entry π)) : List (Candidate π) :=
  ((deduplicate (entries.filter (eligible selection))).take selection.limit).filterMap
    (buildCandidate L X)

/-! ## The bridge -/

/-- A count that the producer claims, against the one recomputed from the evidence. -/
def checkClaim (label : String) (claimed : Stated) (expected : ℤ) : Except String Unit :=
  match claimed with
  | .absent => .ok ()
  | .malformed => .error "producer n_trials is not an integer"
  | .number n =>
      if n ≠ expected then
        .error ("producer " ++ label ++ " mismatch: claimed=" ++ toString n ++ ", recomputed=" ++
          toString expected)
      else .ok ()

/-- `_n_trials`. -/
def nTrials (metrics : Metrics π) : Except String ℤ := do
  match metrics.searchTrialEvidence with
  | none => .error "verified search family evidence is required"
  | some evidence => do
      let counts ← validateSearchTrialEvidence L evidence true
      checkClaim "runtime.n_variants_evaluated"
        ((metrics.runtime.map RuntimeMeta.nVariantsEvaluated).getD .absent)
        counts.attemptedExecutions
      checkClaim "n_variants_evaluated" metrics.nVariantsEvaluated counts.attemptedExecutions
      checkClaim "variant_count" metrics.variantCount counts.selectedPoints
      checkClaim "n_trials" metrics.nTrials counts.effectiveNTrials
      .ok counts.effectiveNTrials

/-- The errors of the provenance, the costs and the simulator of a candidate. -/
def provenanceErrors (candidate : Candidate π) : List String :=
  let basis := candidate.metrics.returnsBasis
  (if candidate.contractVersion ≠ contractVersion then ["contract_version_mismatch"] else []) ++
  (if candidate.candidateId = "" ∨ candidate.sourceRunId = "" then
    ["missing_candidate_or_source_run_id"] else []) ++
  (if candidate.symbol = "" ∨ candidate.strategyId = "" then
    ["missing_symbol_or_strategy_id"] else []) ++
  (if candidate.timeframe = "" ∨ candidate.timeframe = "unknown" then
    ["missing_timeframe_provenance"] else []) ++
  (if candidate.metrics.dataFingerprint = "" ∨ candidate.metrics.dataFingerprint = "nofp" then
    ["missing_data_fingerprint"] else []) ++
  (if candidate.feesBps < 0 ∨ candidate.slippageBps < 0 then ["invalid_cost_assumptions"] else []) ++
  (if basis ≠ "gross_pct" ∧ basis ≠ "net_pct" then ["missing_returns_basis"]
    else if candidate.metrics.costsApplied ≠ some (decide (basis = "net_pct")) then
      ["inconsistent_cost_application_provenance"]
    -- a trade of the simulators has its net return and no `pnl_pct`
    else if candidate.trades ≠ [] ∧ basis = "gross_pct" then ["returns_basis_field_missing"]
    else []) ++
  match validateSimulatorAssumptionManifest X.sha256 candidate.simulatorManifest with
  | .error _ => ["invalid_simulator_or_trade_manifest"]
  | .ok manifest =>
      (if candidate.unsupportedSimulatorDimensions ≠ manifest.unsupportedDimensions then
        ["simulator_unsupported_dimensions_mismatch"] else []) ++
      (if ∃ model ∈ candidate.metrics.simulatorModelId, model ≠ manifest.simulatorModelId then
        ["simulator_model_identity_mismatch"] else []) ++
      match candidate.trades.forM fun trade => validateTradeContract X.sha256 trade manifest with
      | .error _ => ["invalid_simulator_or_trade_manifest"]
      | .ok _ => []

/-- `_candidate_contract_errors`: a candidate that has any fails as `FAILED_DATA_QUALITY`. -/
def candidateContractErrors (candidate : Candidate π) : List String :=
  provenanceErrors X candidate ++
    match nTrials L candidate.metrics with
    | .error e => ["invalid_search_family_evidence:" ++ e]
    | .ok _ => []

end

/-! ## What the exporter writes and the bridge accepts -/

section
variable [DecidableEq π] {L : Laboratory π} {X : Exporter π}

/-- The counts of metrics that were exported from a run. -/
structure CountsFrom (L : Laboratory π) (run : CompletedRun π) (metrics : Metrics π)
    (evidence : Evidence π) (counts : Counts) : Prop where
  evidenceFile : run.evidence = some evidence
  valid : validateSearchTrialEvidence L evidence true = .ok counts
  evidence : metrics.searchTrialEvidence = some evidence
  nVariantsEvaluated : metrics.nVariantsEvaluated = .number counts.effectiveNTrials
  result : ∃ data, run.metrics = some data ∧ metrics.runtime = some data.runtime ∧
    ∃ r ∈ data.results, metrics.variantCount = r.metrics.variantCount ∧
      metrics.nTrials = r.metrics.nTrials

theorem lookupRun_found {entry : Entry π} {run : CompletedRun π} {loaded : Loaded π}
    (h : lookupRun L X entry run = .found loaded) :
    ∃ evidence counts, CountsFrom L run loaded.metrics evidence counts := by
  cases hmetrics : run.metrics with
  | none => simp [lookupRun, hmetrics] at h
  | some data =>
    cases hevidence : run.evidence with
    | none => simp [lookupRun, hmetrics, hevidence] at h
    | some evidence =>
      cases hvalid : validateSearchTrialEvidence L evidence true with
      | error e => simp [lookupRun, hmetrics, hevidence, hvalid] at h
      | ok counts =>
        simp only [lookupRun, hmetrics, hevidence, hvalid] at h
        refine ⟨evidence, counts, ?_⟩
        by_cases hids : data.searchTrialEvidenceId ≠ evidence.searchTrialEvidenceId ∨
            data.multipleTestingFamilyHash ≠ evidence.multipleTestingFamilyHash
        · simp [hids] at h
        rw [if_neg hids] at h
        cases hwanted : data.results.find? (isWanted X entry) with
        | some r =>
          simp only [hwanted, Lookup.found.injEq] at h
          subst h
          exact ⟨hevidence, hvalid, rfl, rfl, data, hmetrics, rfl, r,
            List.mem_of_find?_eq_some hwanted, rfl, rfl⟩
        | none =>
          simp only [hwanted] at h
          cases hresults : data.results with
          | nil => simp [hresults] at h
          | cons r results =>
            by_cases hkey : entry.ucKey = ""
            · simp only [hresults, if_pos hkey, Lookup.found.injEq] at h
              subst h
              exact ⟨hevidence, hvalid, rfl, rfl, data, hmetrics, rfl, r, by simp [hresults], rfl,
                rfl⟩
            · simp [hresults, hkey] at h

theorem lookupRuns_found {entry : Entry π} {runs : List (CompletedRun π)} {loaded : Loaded π}
    (h : lookupRuns L X entry runs = some (some loaded)) :
    ∃ run ∈ runs, lookupRun L X entry run = .found loaded := by
  induction runs with
  | nil => simp [lookupRuns] at h
  | cons run runs ih =>
    cases hrun : lookupRun L X entry run with
    | next =>
      simp only [lookupRuns, hrun] at h
      obtain ⟨run', hmem, hfound⟩ := ih h
      exact ⟨run', List.mem_cons_of_mem _ hmem, hfound⟩
    | rejected => simp [lookupRuns, hrun] at h
    | found loaded' =>
      simp only [lookupRuns, hrun, Option.some.injEq] at h
      exact ⟨run, List.mem_cons_self, h ▸ hrun⟩

omit [DecidableEq π] in
theorem exists_pattern_of_mem_runDirectories {entry : Entry π} {run : CompletedRun π}
    (h : run ∈ runDirectories X entry) : ∃ pattern, run ∈ X.glob pattern := by
  rw [runDirectories] at h
  split_ifs at h
  · simp at h
  · exact ⟨_, h⟩
  · exact ⟨_, h⟩

/-- Metrics with evidence come from a run directory. -/
theorem loadExperimentMetrics_some {entry : Entry π} {loaded : Loaded π}
    (h : loadExperimentMetrics L X entry = some loaded)
    (hevidence : loaded.metrics.searchTrialEvidence ≠ none) :
    ∃ pattern, ∃ run ∈ X.glob pattern, ∃ evidence counts,
      CountsFrom L run loaded.metrics evidence counts := by
  cases hruns : lookupRuns L X entry (runDirectories X entry) with
  | none =>
    simp only [loadExperimentMetrics, hruns, Option.some.injEq] at h
    subst h
    exact absurd rfl hevidence
  | some outcome =>
    simp only [loadExperimentMetrics, hruns] at h
    subst h
    obtain ⟨run, hmem, hfound⟩ := lookupRuns_found hruns
    obtain ⟨pattern, hpattern⟩ := exists_pattern_of_mem_runDirectories hmem
    exact ⟨pattern, run, hpattern, lookupRun_found hfound⟩

/-- A candidate carries the counts of the run that it was built from. -/
theorem buildCandidate_some {entry : Entry π} {candidate : Candidate π}
    (h : buildCandidate L X entry = some candidate) :
    ∃ pattern, ∃ run ∈ X.glob pattern, ∃ evidence counts,
      CountsFrom L run candidate.metrics evidence counts := by
  simp only [buildCandidate, Option.bind_eq_bind, Option.bind_eq_some_iff, Option.pure_def,
    Option.some.injEq] at h
  obtain ⟨loaded, hloaded, evidence, hevidence, -, -, manifest, -, -, -, -, -, params, -, rfl⟩ := h
  obtain ⟨pattern, run, hrun, evidence', counts, hcounts⟩ :=
    loadExperimentMetrics_some hloaded (by simp [hevidence])
  exact ⟨pattern, run, hrun, evidence', counts,
    ⟨hcounts.evidenceFile, hcounts.valid, hcounts.evidence, hcounts.nVariantsEvaluated,
      hcounts.result⟩⟩

/-- The two files of a run agree: they state the same runtime, and what a result says about counts
is what the evidence says. -/
def CompletedRun.Consistent (L : Laboratory π) (run : CompletedRun π) : Prop :=
  ∀ data evidence counts, run.metrics = some data → run.evidence = some evidence →
    validateSearchTrialEvidence L evidence true = .ok counts →
    data.runtime = evidence.runtime ∧ ∀ r ∈ data.results,
      (r.metrics.variantCount = .absent ∨ r.metrics.variantCount = .number counts.selectedPoints) ∧
      (r.metrics.nTrials = .absent ∨ r.metrics.nTrials = .number counts.effectiveNTrials)

theorem checkClaim_number {label : String} {n expected : ℤ} :
    checkClaim label (.number n) expected = .ok () ↔ n = expected := by
  rw [checkClaim, check_eq_ok, not_not, and_iff_left rfl]

theorem checkClaim_of_agrees {label : String} {claimed : Stated} {expected : ℤ}
    (h : claimed = .absent ∨ claimed = .number expected) :
    checkClaim label claimed expected = .ok () := by
  rcases h with rfl | rfl
  · rfl
  · exact checkClaim_number.2 rfl

/-- The count of the runtime was already compared when the evidence was validated. -/
theorem checkClaim_of_producer {label : String} {claimed : Stated} {attempted : ℤ}
    (h : checkProducerCount claimed attempted = .ok ()) :
    checkClaim label claimed attempted = .ok () := by
  cases claimed with
  | absent => rfl
  | malformed => simp [checkProducerCount] at h
  | number n =>
    simp only [checkProducerCount, check_eq_ok, not_not] at h
    exact checkClaim_number.2 h.1

/-- The count that the exporter wrote is accepted if and only if it is the number of executions
that were attempted. -/
theorem nTrials_eq_ok_iff {run : CompletedRun π} {metrics : Metrics π} {evidence : Evidence π}
    {counts : Counts} (h : CountsFrom L run metrics evidence counts)
    (hconsistent : run.Consistent L) :
    nTrials L metrics = .ok counts.effectiveNTrials ↔
      counts.effectiveNTrials = counts.attemptedExecutions := by
  obtain ⟨data, hdata, hruntime, r, hr, hvariants, htrials⟩ := h.result
  obtain ⟨hsame, hresults⟩ := hconsistent data evidence counts hdata h.evidenceFile h.valid
  have hproducer := (validateSearchTrialEvidence_ok h.valid).1.producer
  have hclaim : checkClaim "runtime.n_variants_evaluated"
      ((metrics.runtime.map RuntimeMeta.nVariantsEvaluated).getD .absent)
      counts.attemptedExecutions = .ok () := by
    rw [hruntime, hsame]
    exact checkClaim_of_producer hproducer
  have hvariantCount : checkClaim "variant_count" metrics.variantCount counts.selectedPoints =
      .ok () := checkClaim_of_agrees (hvariants ▸ (hresults r hr).1)
  have hnTrials : checkClaim "n_trials" metrics.nTrials counts.effectiveNTrials = .ok () :=
    checkClaim_of_agrees (htrials ▸ (hresults r hr).2)
  simp only [nTrials, h.evidence, bind_eq_ok, h.valid, Except.ok.injEq, exists_eq_left', hclaim,
    h.nVariantsEvaluated, hvariantCount, hnTrials, and_true]
  constructor
  · rintro ⟨_, -, _, hn, -⟩
    exact checkClaim_number.1 hn
  · intro hn
    exact ⟨(), trivial, (), checkClaim_number.2 hn, (), trivial, (), trivial⟩

theorem candidateContractErrors_eq_iff {candidate : Candidate π} :
    candidateContractErrors L X candidate = provenanceErrors X candidate ↔
      ∃ n, nTrials L candidate.metrics = .ok n := by
  cases hn : nTrials L candidate.metrics with
  | error e => simp [candidateContractErrors, hn]
  | ok n => simp [candidateContractErrors, hn]

/-- The trial count of an exported candidate is the one that its family counts for, and is held
against no candidate, if and only if the family is not cumulative and the execution cap cut off no
execution. -/
theorem exported_count_agrees_iff {selection : Selection} {entries : List (Entry π)}
    {candidate : Candidate π} (hexported : candidate ∈ prepareRequests L X selection entries)
    (hconsistent : ∀ pattern, ∀ run ∈ X.glob pattern, run.Consistent L) :
    ∃ evidence counts, candidate.metrics.searchTrialEvidence = some evidence ∧
      validateSearchTrialEvidence L evidence true = .ok counts ∧
      ((nTrials L candidate.metrics = .ok counts.effectiveNTrials ∧
          candidateContractErrors L X candidate = provenanceErrors X candidate) ↔
        evidence.searchFamilyDefinition.familyPolicy.mode ≠ .cumulative ∧
          ∀ row ∈ evidence.trials, row.terminalDisposition ≠ .executionCap) := by
  obtain ⟨entry, -, hbuilt⟩ := List.mem_filterMap.1 hexported
  obtain ⟨pattern, run, hrun, evidence, counts, hcounts⟩ := buildCandidate_some hbuilt
  obtain ⟨hvalid, hcomplete⟩ := validateSearchTrialEvidence_ok hcounts.valid
  refine ⟨evidence, counts, hcounts.evidence, hcounts.valid, ?_⟩
  rw [← hvalid.effective_eq_attempted_iff (hcomplete rfl), candidateContractErrors_eq_iff,
    ← nTrials_eq_ok_iff hcounts (hconsistent pattern run hrun)]
  exact ⟨fun h => h.1, fun h => ⟨h, _, h⟩⟩

end

/-! ## The run of a family -/

namespace Sample

/-- The summary of the execution of one point. -/
def summary (index : ℕ) : MetricsSummary := ⟨index, "fp", ""⟩

def metrics (index : ℕ) : Metrics ℕ :=
  { (summary index).metrics with
    simulatorManifest := some (legacyFixtureManifest fun _ => "m") }

def run (mode : Mode) (params : List ℕ) : CompletedRun ℕ where
  metrics := some {
    feesBps := some 7
    slippageBps := some 3
    searchTrialEvidenceId := (evidence mode params).searchTrialEvidenceId
    multipleTestingFamilyHash := familyId params
    runtime := runtime params
    results := params.mapIdx fun index value =>
      { runId := "r" ++ toString index, symbol := "BTC", family := "range_breakout",
        params := value, metrics := metrics index, trades := [] } }
  evidence := some (evidence mode params)

def exporter (mode : Mode) (params : List ℕ) : Exporter ℕ where
  sha256 _ := "m"
  glob _ := [run mode params]
  paramsHash params := toString params
  rebuildTrades _ := []
  recoverTimeframe _ entry := entry.timeframe

/-- The catalogue's entry of the execution of one point. -/
def entry (index value : ℕ) : Entry ℕ where
  candidateId := "fv_" ++ toString index
  sourceCandidateId := "r" ++ toString index
  ucKey := "u" ++ toString index
  experimentId := "x"
  artifactLabel := "x"
  symbol := "BTC"
  timeframe := "1h"
  strategyId := "range_breakout"
  paramsHash := toString value
  dataFingerprint := "fp"
  params := none
  feesBps := none
  slippageBps := none
  metricsSummary := summary index
  validationStatus := .forwardPaper
  createdAt := ""

def selection : Selection where
  limit := 50
  statusFilter := none
  includeRegimeSpecific := true
  since := ""
  candidateId := ""

theorem run_consistent (mode : Mode) (params : List ℕ) :
    (run mode params).Consistent laboratory := by
  intro data evidence counts hdata hevidence _
  obtain rfl := Option.some.inj hdata
  obtain rfl := Option.some.inj hevidence
  refine ⟨rfl, fun r hr => ?_⟩
  obtain ⟨index, _, rfl⟩ := List.mem_mapIdx.1 hr
  exact ⟨.inl rfl, .inl rfl⟩

end Sample

open Sample

/-- The two executions of an independent family: both candidates pass. -/
theorem exported_count_agrees_pair :
    (prepareRequests laboratory (exporter .independent [7, 9]) selection
      [entry 0 7, entry 1 9]).length = 2 ∧
    ∀ candidate ∈ prepareRequests laboratory (exporter .independent [7, 9]) selection
        [entry 0 7, entry 1 9],
      ∃ evidence counts, candidate.metrics.searchTrialEvidence = some evidence ∧
        validateSearchTrialEvidence laboratory evidence true = .ok counts ∧
        ((nTrials laboratory candidate.metrics = .ok counts.effectiveNTrials ∧
            candidateContractErrors laboratory (exporter .independent [7, 9]) candidate =
              provenanceErrors (exporter .independent [7, 9]) candidate) ↔
          evidence.searchFamilyDefinition.familyPolicy.mode ≠ .cumulative ∧
            ∀ row ∈ evidence.trials, row.terminalDisposition ≠ .executionCap) := by
  refine ⟨by decide +kernel, fun candidate hexported => ?_⟩
  refine exported_count_agrees_iff hexported fun pattern r hr => ?_
  rw [List.mem_singleton.1 hr]
  exact run_consistent .independent [7, 9]

/-- The one execution of a cumulative family was attempted, and the family counts for two: the
count that the exporter wrote is held against the candidate. -/
theorem cumulative_family_rejected :
    (run .cumulative [7]).Consistent laboratory ∧
      (validateSearchTrialEvidence laboratory (evidence .cumulative [7]) true).toOption.map
        (fun counts => (counts.attemptedExecutions, counts.effectiveNTrials)) = some (1, 2) ∧
      (prepareRequests laboratory (exporter .cumulative [7]) selection [entry 0 7]).map
        (fun candidate => (nTrials laboratory candidate.metrics,
          candidateContractErrors laboratory (exporter .cumulative [7]) candidate)) =
      [(.error "producer n_variants_evaluated mismatch: claimed=2, recomputed=1",
        ["invalid_search_family_evidence:producer n_variants_evaluated mismatch: claimed=2, recomputed=1"])] :=
  ⟨run_consistent .cumulative [7], by decide +kernel, by decide +kernel⟩

end ResearchLab.Search
