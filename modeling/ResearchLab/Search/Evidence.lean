import Mathlib
import ResearchLab.Search.Definition

/-!
# Search-trial evidence

`search_trial_evidence`: the ledger of the executions of a search family, with one row for every
symbol and selected point, and its validation against the definition of the family.
-/
namespace ResearchLab.Search
open Foundation

/-- Where a phase of an execution ran. -/
inductive Backend | cpu | gpu | notExecuted | unknown
  deriving DecidableEq

/-- Why a phase was not executed. -/
inductive Idle | dataGate | resourceCap | missingTerminal | beforeSimulation
  deriving DecidableEq

inductive SignalKernel | gpuKernels | strategyGenerator | notExecuted (why : Idle) | unknown
  deriving DecidableEq

inductive SignalReason
  | resolvedCpu | unsupportedFamily | gpuEligible | autoBatchTooSmall
  | dataGate | resourceExecutionCap | missingTerminal | unknown
  deriving DecidableEq

inductive Simulator | gpuSimulator | cpuSimulator | notExecuted (why : Idle) | unknown
  deriving DecidableEq

inductive Phase
  | signalGeneration | simulation | completed | dataGate | executionCap | missingTerminal | unknown
  deriving DecidableEq

/-- The `execution_identity` that an execution reports. -/
structure Execution where
  requestedBackend : String
  resolvedBackend : Backend
  backendName : String
  signalBackend : Backend
  signalKernel : SignalKernel
  signalBackendReason : SignalReason
  signalCandleCount : ℤ
  signalFamilyVariantCount : ℤ
  simulationBackend : Backend
  simulator : Simulator
  terminalPhase : Phase
  deriving DecidableEq

/-- The identity in a row: what was reported, with the versions and digests behind it. -/
structure ExecutionIdentity extends Execution where
  backendLibraryVersion : String
  numpyVersion : String
  pythonVersion : String
  signalKernelSha256 : String
  simulatorSha256 : String
  deriving DecidableEq

inductive Disposition | evaluated | dataGate | error | executionCap | missingTerminal
  deriving DecidableEq

def Disposition.attempted : Disposition → Bool
  | .evaluated | .dataGate | .error => true
  | .executionCap | .missingTerminal => false

inductive RowBinding | bound | legacyUnknown
  deriving DecidableEq

/-- The fields of a row that the definition of the family determines. -/
structure RowIdentity (π : Type) where
  ordinal : ℕ
  executionId : String
  flatIndex : ℤ
  symbol : String
  family : String
  params : π
  deriving DecidableEq

structure TrialRow (π : Type) extends RowIdentity π where
  runId : String
  terminalDisposition : Disposition
  reason : String
  decision : String
  validationStatus : String
  dataSnapshotId : String
  dataEvidenceHash : String
  familyDataSnapshotId : String
  familyDataEvidenceHash : String
  dataBindingStatus : RowBinding
  executionIdentity : ExecutionIdentity
  deriving DecidableEq

/-- The counts of a ledger, `search_space`. -/
structure Counts extends PreCounts where
  selectedExecutions : ℤ
  attemptedExecutions : ℤ
  evaluated : ℤ
  dataGates : ℤ
  errors : ℤ
  executionCap : ℤ
  missingTerminal : ℤ
  notEvaluated : ℤ
  effectiveNTrials : ℤ
  deriving DecidableEq

/-- A count that some producer states: nothing, a value that `int` turns into a number, or one that
it refuses. -/
inductive Stated | absent | number (n : ℤ) | malformed
  deriving DecidableEq

structure RuntimeMeta where
  nVariantsEvaluated : Stated
  backendName : String
  effectiveBackend : String
  resolvedBackend : String
  signalBackend : String
  simulationBackend : String
  deriving DecidableEq

/-- The aggregate `execution_identity` of a ledger. -/
structure RuntimeIdentity where
  effectiveBackend : String
  signalBackend : String
  simulationBackend : String
  backendName : String
  backendLibraryVersion : String
  numpyVersion : String
  pythonVersion : String
  simulatorIdentity : String
  deriving DecidableEq

structure CodeIdentity where
  runtimeSources : List (String × String)
  strategyGenerators : List (String × String)
  deriving DecidableEq

inductive EvidenceSchema | legacy | current | other
  deriving DecidableEq

structure EvidenceBody (π : Type) where
  schema : EvidenceSchema
  experimentId : String
  searchFamilyId : String
  multipleTestingFamilyHash : String
  searchFamilyDefinition : Definition π
  searchSpace : Counts
  runtime : RuntimeMeta
  executionIdentity : RuntimeIdentity
  codeIdentity : CodeIdentity
  trials : List (TrialRow π)
  deriving DecidableEq

structure Evidence (π : Type) extends EvidenceBody π where
  searchTrialEvidenceId : String
  deriving DecidableEq

/-- A registered strategy: how it completes parameters by its defaults, and the digest of its
signal generator. -/
structure Strategy (π : Type) where
  normalized : π → π
  generatorSha256 : String

/-- The code base and the machine that evidence is compared with. -/
structure Laboratory (π : Type) extends Compiler π where
  strategy : String → Option (Strategy π)
  executionHash : String → String → ℤ → String
  evidenceHash : EvidenceBody π → String
  sourceDigest : String → String
  libraryVersion : String → String
  pythonVersion : String
  researchCodeIdentity : String

variable {π : Type}

namespace Laboratory
variable (L : Laboratory π)

def getStrategy (family : String) : Except String (Strategy π) :=
  match L.strategy family with
  | some strategy => .ok strategy
  | none => .error ("unknown strategy: " ++ family)

def normalizedParams (family : String) (params : π) : Except String π := do
  let strategy ← L.getStrategy family
  .ok (strategy.normalized params)

def runtimeSourceNames : List String :=
  ["experiment.py", "gpu_kernels.py", "gpu_runtime.py", "gpu_simulator.py",
    "search_trial_evidence.py", "strategy_registry.py", "trade_math.py"]

def executionCodeIdentity (families : List String) : Except String CodeIdentity := do
  let generators ← (sortOn id families.dedup).mapM fun family => do
    let strategy ← L.getStrategy family
    .ok (family, strategy.generatorSha256)
  .ok {
    runtimeSources := runtimeSourceNames.map fun name => (name, L.sourceDigest name)
    strategyGenerators := generators }

/-- The identity of an execution with the digests of the code that it names. -/
def perExecutionIdentity (raw : Execution) (family : String) (code : CodeIdentity) :
    ExecutionIdentity :=
  let backendName := if raw.backendName = "" then "unknown" else raw.backendName
  { raw with
    requestedBackend := if raw.requestedBackend = "" then "unknown" else raw.requestedBackend
    backendName := backendName
    backendLibraryVersion :=
      if backendName = "not_executed" then "not_executed" else L.libraryVersion backendName
    numpyVersion := L.libraryVersion "numpy"
    pythonVersion := L.pythonVersion
    signalKernelSha256 :=
      match raw.signalKernel with
      | .gpuKernels => (code.runtimeSources.lookup "gpu_kernels.py").getD "missing"
      | .strategyGenerator => (code.strategyGenerators.lookup family).getD "missing"
      | .notExecuted _ => "not_executed"
      | .unknown => "unknown"
    simulatorSha256 :=
      match raw.simulator with
      | .gpuSimulator => (code.runtimeSources.lookup "gpu_simulator.py").getD "missing"
      | .cpuSimulator => (code.runtimeSources.lookup "experiment.py").getD "missing"
      | .notExecuted _ => "not_executed"
      | .unknown => "unknown" }

def executionId (familyId symbol : String) (flatIndex : ℤ) : String :=
  "stept_" ++ L.executionHash familyId symbol flatIndex

/-- The rows that a family calls for: every symbol with every selected point. -/
def expectedExecutionIdentityRows (definition : Definition π) (familyId : String) :
    Except String (List (RowIdentity π)) :=
  (definition.symbols ×ˢ definition.selected).zipIdx.mapM fun ((symbol, point), ordinal) => do
    let family := definition.familyOf point
    let params ← L.normalizedParams family point.params
    .ok {
      ordinal := ordinal
      executionId := L.executionId familyId symbol point.flatIndex
      flatIndex := point.flatIndex
      symbol := symbol
      family := family
      params := params }

end Laboratory

/-! ## The execution identity of a row -/

def gpuSupportedFamilies : List String :=
  ["momentum_breakout", "donchian_breakout", "range_breakout", "volatility_squeeze_breakout",
    "mean_reversion_fade", "volume_shock_continuation", "impulse_continuation",
    "range_volume_breakout", "pump_dump_scalp"]

def autoGpuMinWorkItems : ℤ := 8000

def autoGpuWorthwhile (nBars nVariants : ℤ) : Bool :=
  autoGpuMinWorkItems ≤ max 0 nBars * max 0 nVariants

def checkUnattempted (identity : ExecutionIdentity) (why : Idle) (reason : SignalReason)
    (phase : Phase) : Except String Unit :=
  if identity.resolvedBackend ≠ .notExecuted ∨ identity.backendName ≠ "not_executed" ∨
      identity.signalBackend ≠ .notExecuted ∨ identity.signalKernel ≠ .notExecuted why ∨
      identity.signalBackendReason ≠ reason ∨ identity.simulationBackend ≠ .notExecuted ∨
      identity.simulator ≠ .notExecuted why ∨ identity.terminalPhase ≠ phase then
    .error "unattempted trial has inconsistent execution identity"
  else .ok ()

def checkResolved (identity : ExecutionIdentity) : Except String Unit :=
  let allowed : List Backend :=
    if identity.requestedBackend = "cpu" then [.cpu]
    else if identity.requestedBackend = "gpu" then [.gpu]
    else [.cpu, .gpu]
  if identity.resolvedBackend ∉ allowed then
    .error "search trial resolved backend contradicts requested backend"
  else .ok ()

def checkDataGate (identity : ExecutionIdentity) (candleCount variantCount : ℤ) :
    Except String Unit :=
  if identity.backendName ≠ "not_executed" ∨ identity.signalBackend ≠ .notExecuted ∨
      identity.signalKernel ≠ .notExecuted .dataGate ∨ identity.signalBackendReason ≠ .dataGate ∨
      identity.simulationBackend ≠ .notExecuted ∨ identity.simulator ≠ .notExecuted .dataGate ∨
      identity.terminalPhase ≠ .dataGate then
    .error "data-gated trial has inconsistent execution identity"
  else if identity.signalCandleCount ≠ candleCount ∨
      identity.signalFamilyVariantCount ≠ variantCount then
    .error "data-gated signal workload disagrees with immutable family/data"
  else .ok ()

/-- The backend and the reason that the signals of an execution must have. -/
def expectedSignal (identity : ExecutionIdentity) (family : String) : Backend × SignalReason :=
  if identity.resolvedBackend = .cpu then (.cpu, .resolvedCpu)
  else if family ∉ gpuSupportedFamilies then (.cpu, .unsupportedFamily)
  else if identity.requestedBackend = "gpu" then (.gpu, .gpuEligible)
  else if autoGpuWorthwhile identity.signalCandleCount identity.signalFamilyVariantCount then
    (.gpu, .gpuEligible)
  else (.cpu, .autoBatchTooSmall)

def checkSignal (identity : ExecutionIdentity) (family : String) (candleCount variantCount : ℤ) :
    Except String Unit :=
  if identity.signalCandleCount ≠ candleCount ∨
      identity.signalFamilyVariantCount ≠ variantCount then
    .error "search trial signal workload disagrees with immutable family/data"
  else if ¬(identity.signalBackend = .cpu ∧ identity.signalKernel = .strategyGenerator ∨
      identity.signalBackend = .gpu ∧ identity.signalKernel = .gpuKernels) then
    .error "search trial signal backend/kernel identity mismatch"
  else if (identity.signalBackend, identity.signalBackendReason) ≠
      expectedSignal identity family then
    .error "search trial signal path contradicts deterministic GPU eligibility"
  else .ok ()

/-- A simulation backend with its simulator. -/
def ExecutionIdentity.simulated (identity : ExecutionIdentity) : Prop :=
  identity.simulationBackend = .cpu ∧ identity.simulator = .cpuSimulator ∨
    identity.simulationBackend = .gpu ∧ identity.simulator = .gpuSimulator

instance ExecutionIdentity.decidableSimulated (identity : ExecutionIdentity) :
    Decidable identity.simulated :=
  inferInstanceAs (Decidable (_ ∨ _))

def checkEvaluated (identity : ExecutionIdentity) : Except String Unit :=
  if ¬identity.simulated ∨ identity.terminalPhase ≠ .completed then
    .error "evaluated trial has inconsistent execution identity"
  else .ok ()

def checkError (identity : ExecutionIdentity) : Except String Unit :=
  match identity.terminalPhase with
  | .signalGeneration =>
      if identity.simulationBackend ≠ .notExecuted ∨
          identity.simulator ≠ .notExecuted .beforeSimulation then
        .error "signal-error trial has inconsistent execution identity"
      else .ok ()
  | .simulation =>
      if ¬identity.simulated then
        .error "simulation-error trial has inconsistent execution identity"
      else .ok ()
  | _ => .error "error trial has inconsistent terminal phase"

def checkBackendName (identity : ExecutionIdentity) : Except String Unit :=
  if identity.signalBackend = .gpu ∨ identity.simulationBackend = .gpu then
    if identity.resolvedBackend ≠ .gpu ∨ identity.backendName ≠ "cupy" then
      .error "GPU execution identity has inconsistent runtime backend"
    else .ok ()
  else if identity.backendName ≠ "numpy" then
    .error "CPU execution identity has inconsistent runtime backend"
  else .ok ()

/-- `_validate_per_execution_semantics`. -/
def validatePerExecutionSemantics (identity : ExecutionIdentity) (status : Disposition)
    (family : String) (candleCount variantCount : ℤ) : Except String Unit :=
  if identity.requestedBackend ∉ ["cpu", "gpu", "auto"] then
    .error "search trial requested backend is invalid"
  else
    match status with
    | .executionCap => checkUnattempted identity .resourceCap .resourceExecutionCap .executionCap
    | .missingTerminal => checkUnattempted identity .missingTerminal .missingTerminal .missingTerminal
    | .dataGate => do
        checkResolved identity
        checkDataGate identity candleCount variantCount
    | .evaluated => do
        checkResolved identity
        checkSignal identity family candleCount variantCount
        checkEvaluated identity
        checkBackendName identity
    | .error => do
        checkResolved identity
        checkSignal identity family candleCount variantCount
        checkError identity
        checkBackendName identity

/-! ## The checks of a ledger -/

section
variable [DecidableEq π] (L : Laboratory π)

/-- The families that a definition names. -/
def Definition.families (definition : Definition π) : List String :=
  sortOn id ((definition.points.map Point.family).filter (· ≠ "")).dedup ++
    if definition.origin.defaultFamily = "" then [] else [definition.origin.defaultFamily]

def checkCodeIdentity (evidence : Evidence π) : Except String CodeIdentity := do
  let current ← L.executionCodeIdentity evidence.searchFamilyDefinition.families
  if evidence.codeIdentity ≠ current then
    .error "historical search execution code is unavailable"
  else .ok current

def checkEvidenceId (evidence : Evidence π) : Except String Unit :=
  if evidence.searchTrialEvidenceId ≠ "ste_" ++ L.evidenceHash evidence.toEvidenceBody then
    .error "search trial evidence id mismatch"
  else .ok ()

def checkExecutionIds (trials : List (TrialRow π)) : Except String Unit :=
  let ids := trials.map fun row => row.executionId
  if "" ∈ ids ∨ ¬ids.Nodup then .error "search trial execution ids are invalid"
  else .ok ()

def checkRowIdentities (evidence : Evidence π) : Except String Unit := do
  let expected ← L.expectedExecutionIdentityRows evidence.searchFamilyDefinition
    evidence.searchFamilyId
  if evidence.trials.length ≠ expected.length then
    .error "search trial ledger does not cover every selected execution"
  else if evidence.trials.map TrialRow.toRowIdentity ≠ expected then
    .error "search trial row identity disagrees with immutable family"
  else .ok ()

/-- The backend that the definition of a family requests. -/
def Definition.requestedBackend (definition : Definition π) : String :=
  if definition.origin.backend = "" then "unknown" else definition.origin.backend

/-- `binding_members.get(symbol) or own`: later members of one symbol win. -/
def Definition.candleCount (definition : Definition π) (symbol : String) (own : ℤ) : ℤ :=
  match definition.dataBinding.members.reverse.find? (·.symbol = symbol) with
  | some member => if member.rowCount = 0 then own else member.rowCount
  | none => own

/-- How many selected points a family has. -/
def Definition.variantCount (definition : Definition π) (family : String) : ℤ :=
  (definition.selected.countP fun point => definition.familyOf point = family : ℕ)

def checkExecution (definition : Definition π) (code : CodeIdentity) (row : TrialRow π) :
    Except String Unit :=
  let identity := row.executionIdentity
  if identity.requestedBackend ≠ definition.requestedBackend then
    .error "search trial requested backend disagrees with family"
  else if identity ≠ L.perExecutionIdentity identity.toExecution row.family code then
    .error "search trial backend/kernel/simulator identity mismatch"
  else validatePerExecutionSemantics identity row.terminalDisposition row.family
    (definition.candleCount row.symbol identity.signalCandleCount)
    (definition.variantCount row.family)

def countStatus (trials : List (TrialRow π)) (p : Disposition → Bool) : ℤ :=
  (trials.countP fun row => p row.terminalDisposition : ℕ)

/-- The counts that a ledger has. -/
def ledgerCounts (pre : PreCounts) (trials : List (TrialRow π)) (effective : ℤ) : Counts where
  toPreCounts := pre
  selectedExecutions := trials.length
  attemptedExecutions := countStatus trials Disposition.attempted
  evaluated := countStatus trials (· = .evaluated)
  dataGates := countStatus trials (· = .dataGate)
  errors := countStatus trials (· = .error)
  executionCap := countStatus trials (· = .executionCap)
  missingTerminal := countStatus trials (· = .missingTerminal)
  notEvaluated := countStatus trials (· = .dataGate) + countStatus trials (· = .error) +
    countStatus trials (· = .executionCap) + countStatus trials (· = .missingTerminal)
  effectiveNTrials := effective

/-- The counts by the keys of `search_space`, in the order in which they are compared. -/
def Counts.fields (counts : Counts) : List (String × ℤ) :=
  [("raw_points", counts.rawPoints), ("schema_invalid", counts.schemaInvalid),
    ("dependency_invalid", counts.dependencyInvalid), ("eligible_points", counts.eligiblePoints),
    ("selected_points", counts.selectedPoints),
    ("omitted_variant_cap", counts.omittedVariantCap),
    ("selected_executions", counts.selectedExecutions),
    ("attempted_executions", counts.attemptedExecutions), ("evaluated", counts.evaluated),
    ("data_gates", counts.dataGates), ("errors", counts.errors),
    ("execution_cap", counts.executionCap), ("missing_terminal", counts.missingTerminal),
    ("not_evaluated", counts.notEvaluated), ("effective_n_trials", counts.effectiveNTrials)]

def checkSearchSpace (stated expected : Counts) : Except String Unit :=
  match (stated.fields.zip expected.fields).find? fun (s, e) => s ≠ e with
  | some (_, e) => .error ("search trial aggregate mismatch: " ++ e.1)
  | none => .ok ()

def checkRow (row : TrialRow π) : Except String Unit :=
  let identity := row.executionIdentity
  if row.terminalDisposition.attempted ∧ row.runId = "" then
    .error "attempted search trial has no terminal run id"
  else if ¬row.terminalDisposition.attempted ∧
      (row.runId ≠ "" ∨ row.decision ≠ "" ∨ row.validationStatus ≠ "") then
    .error "unattempted search trial carries terminal execution fields"
  else if row.terminalDisposition = .evaluated ∧ (identity.terminalPhase ≠ .completed ∨
      identity.signalBackend ∉ [.cpu, .gpu] ∨ identity.simulationBackend ∉ [.cpu, .gpu]) then
    .error "evaluated trial has inconsistent execution identity"
  else if row.terminalDisposition = .dataGate ∧ (identity.terminalPhase ≠ .dataGate ∨
      identity.signalBackend ≠ .notExecuted ∨ identity.simulationBackend ≠ .notExecuted) then
    .error "data-gated trial has inconsistent execution identity"
  else if row.terminalDisposition = .executionCap ∧ (identity.terminalPhase ≠ .executionCap ∨
      identity.signalBackend ≠ .notExecuted ∨ identity.simulationBackend ≠ .notExecuted) ∨
      row.terminalDisposition = .missingTerminal ∧ (identity.terminalPhase ≠ .missingTerminal ∨
        identity.signalBackend ≠ .notExecuted ∨ identity.simulationBackend ≠ .notExecuted) then
    .error "unattempted trial has inconsistent execution identity"
  else .ok ()

def checkRuntimeIdentity (identity : RuntimeIdentity) : Except String Unit :=
  if identity.simulatorIdentity ≠ L.researchCodeIdentity then
    .error "historical simulator identity is unavailable"
  else if identity.backendName ∉ ["", "unknown"] ∧
      identity.backendLibraryVersion ≠ L.libraryVersion identity.backendName then
    .error "aggregate backend library identity mismatch"
  else if identity.numpyVersion ∉ ["", "unknown"] ∧
      identity.numpyVersion ≠ L.libraryVersion "numpy" then
    .error "aggregate numpy library identity mismatch"
  else if identity.pythonVersion ∉ ["", "unknown"] ∧ identity.pythonVersion ≠ L.pythonVersion then
    .error "aggregate Python runtime identity mismatch"
  else .ok ()

def checkProducerCount (stated : Stated) (attempted : ℤ) : Except String Unit :=
  match stated with
  | .absent => .ok ()
  | .number n =>
      if n ≠ attempted then .error "producer attempted-trial count mismatch" else .ok ()
  | .malformed => .error "invalid literal for int()"

/-- A row that says everything about its execution. -/
def ExecutionIdentity.complete (identity : ExecutionIdentity) : Bool :=
  identity.requestedBackend ∉ ["", "unknown"] && identity.resolvedBackend ≠ .unknown &&
    identity.backendName ∉ ["", "unknown"] &&
    identity.backendLibraryVersion ∉ ["", "unknown"] &&
    identity.numpyVersion ∉ ["", "unknown"] && identity.pythonVersion ∉ ["", "unknown"] &&
    identity.signalBackend ≠ .unknown && identity.signalKernel ≠ .unknown &&
    identity.signalKernelSha256 ∉ ["", "unknown"] && identity.signalBackendReason ≠ .unknown &&
    identity.signalCandleCount ≠ 0 && identity.signalFamilyVariantCount ≠ 0 &&
    identity.simulationBackend ≠ .unknown && identity.simulator ≠ .unknown &&
    identity.simulatorSha256 ∉ ["", "unknown"] && identity.terminalPhase ≠ .unknown

/-- What `require_complete` asks for. -/
def checkComplete (evidence : Evidence π) (counts : Counts) : Except String Unit :=
  let definition := evidence.searchFamilyDefinition
  let identity := evidence.executionIdentity
  if definition.dataBinding.status ≠ .bound then
    .error "search family data snapshot identity is incomplete"
  else if definition.requestedBackend = "auto" ∧ definition.dataBinding.members = [] then
    .error "auto backend evidence requires bound candle row counts"
  else if counts.missingTerminal ≠ 0 then .error "search family has missing terminal executions"
  else if ∃ row ∈ evidence.trials,
      row.terminalDisposition ≠ .executionCap ∧ row.dataBindingStatus ≠ .bound then
    .error "search trial data snapshot identity is incomplete"
  else if ∃ row ∈ evidence.trials,
      row.terminalDisposition ≠ .executionCap ∧ ¬row.executionIdentity.complete then
    .error "search trial per-execution identity is incomplete"
  else if identity.effectiveBackend ∈ ["", "unknown"] ∨ identity.signalBackend ∈ ["", "unknown"] ∨
      identity.simulationBackend ∈ ["", "unknown"] then
    .error "search trial backend/simulator identity is incomplete"
  else if identity.backendName ∈ ["", "unknown"] ∨
      identity.backendLibraryVersion ∈ ["", "unknown"] ∨ identity.numpyVersion ∈ ["", "unknown"] ∨
      identity.pythonVersion ∈ ["", "unknown"] then
    .error "search trial runtime library identity is incomplete"
  else .ok ()

def checkRequired (evidence : Evidence π) (counts : Counts) (requireComplete : Bool) :
    Except String Unit :=
  if requireComplete then checkComplete evidence counts else .ok ()

/-- The data identity that a row of a bound family must have. -/
def Definition.expectedData (definition : Definition π) (symbol : String) : String × String :=
  let binding := definition.dataBinding
  match binding.members.reverse.find?
      fun item => item.symbol = symbol ∧ item.timeframe = definition.origin.timeframe with
  | some member => (member.snapshotId, member.evidenceHash)
  | none => (binding.snapshotId, binding.evidenceHash)

def checkRowData (definition : Definition π) (row : TrialRow π) : Except String Unit :=
  let binding := definition.dataBinding
  if (row.familyDataSnapshotId, row.familyDataEvidenceHash) ≠
      (binding.snapshotId, binding.evidenceHash) then
    .error "search trial data identity disagrees with bound family"
  else if row.terminalDisposition ≠ .executionCap ∧
      (row.dataSnapshotId, row.dataEvidenceHash) ≠ definition.expectedData row.symbol then
    .error "search trial actual data identity disagrees with family member"
  else .ok ()

def checkData (evidence : Evidence π) : Except String Unit :=
  if evidence.searchFamilyDefinition.dataBinding.status = .bound then
    evidence.trials.forM (checkRowData evidence.searchFamilyDefinition)
  else .ok ()

/-- `validate_search_trial_evidence`. -/
def validateSearchTrialEvidence (evidence : Evidence π) (requireComplete : Bool) :
    Except String Counts := do
  if evidence.schema = .legacy then .error "legacy search evidence is compiled_subspace_only"
  else if evidence.schema = .other then .error "unsupported search trial evidence schema"
  else if evidence.searchFamilyId = "" then
    .error "search trial evidence has no bound family definition"
  else
    let definition := evidence.searchFamilyDefinition
    let pre ← validateSearchFamilyDefinition L.toCompiler definition evidence.searchFamilyId
    let code ← checkCodeIdentity L evidence
    checkEvidenceId L evidence
    checkExecutionIds evidence.trials
    checkRowIdentities L evidence
    evidence.trials.forM (checkExecution L definition code)
    let effective ← effectiveFamilyNTrials L.toCompiler definition
    let counts := ledgerCounts pre evidence.trials effective
    checkSearchSpace evidence.searchSpace counts
    evidence.trials.forM checkRow
    checkRuntimeIdentity L evidence.executionIdentity
    checkProducerCount evidence.runtime.nVariantsEvaluated counts.attemptedExecutions
    checkRequired evidence counts requireComplete
    checkData evidence
    .ok counts

end

/-! ## What valid evidence guarantees -/

theorem length_expectedExecutionIdentityRows {L : Laboratory π} {definition : Definition π}
    {familyId : String} {rows : List (RowIdentity π)}
    (h : L.expectedExecutionIdentityRows definition familyId = .ok rows) :
    (rows.length : ℤ) = definition.runTotal := by
  have hlength := (mapM_eq_ok_iff.1 h).length_eq
  rw [List.length_zipIdx, List.length_product] at hlength
  rw [← hlength, Definition.runTotal]
  exact Nat.cast_mul _ _

/-- Every row was attempted, cut off by the cap, or left without a result. -/
theorem countStatus_add (trials : List (TrialRow π)) :
    countStatus trials Disposition.attempted + countStatus trials (· = .executionCap) +
      countStatus trials (· = .missingTerminal) = trials.length := by
  induction trials with
  | nil => rfl
  | cons row trials ih =>
    simp only [countStatus, List.countP_cons, List.length_cons] at ih ⊢
    cases hdisposition : row.terminalDisposition <;>
      simp [Disposition.attempted] at ih ⊢ <;> omega

/-- The facts about evidence that its validation establishes. -/
structure Validated [DecidableEq π] (L : Laboratory π) (evidence : Evidence π) (counts : Counts) :
    Prop where
  definition : evidence.searchFamilyDefinition.Valid L.toCompiler
  executions : 1 ≤ evidence.searchFamilyDefinition.runTotal
  rows : L.expectedExecutionIdentityRows evidence.searchFamilyDefinition evidence.searchFamilyId =
    .ok (evidence.trials.map TrialRow.toRowIdentity)
  ids : (evidence.trials.map fun row => row.executionId).Nodup ∧
    "" ∉ evidence.trials.map fun row => row.executionId
  selectedPoints : counts.selectedPoints = evidence.searchFamilyDefinition.selected.length
  attempted : counts.attemptedExecutions = countStatus evidence.trials Disposition.attempted
  missing : counts.missingTerminal = countStatus evidence.trials (· = .missingTerminal)
  effective : counts.effectiveNTrials = evidence.searchFamilyDefinition.trialCount
  producer : checkProducerCount evidence.runtime.nVariantsEvaluated counts.attemptedExecutions =
    .ok ()
  data : checkData evidence = .ok ()

section
variable [DecidableEq π] {L : Laboratory π} {evidence : Evidence π} {counts : Counts}

theorem validateSearchTrialEvidence_ok {requireComplete : Bool}
    (h : validateSearchTrialEvidence L evidence requireComplete = .ok counts) :
    Validated L evidence counts ∧
      (requireComplete = true → checkComplete evidence counts = .ok ()) := by
  simp only [validateSearchTrialEvidence, check_eq_ok, bind_eq_ok] at h
  obtain ⟨-, -, -, pre, hpre, code, -, _, -, _, hids, _, hrows, _, -, effective, heffective, _, -,
    _, -, _, -, _, hproducer, _, hcomplete, _, hdata, hcounts⟩ := h
  obtain ⟨hdefinition, hselected⟩ := validateSearchFamilyDefinition_ok hpre
  obtain ⟨-, heffective, hruns⟩ := effectiveFamilyNTrials_ok heffective
  simp only [checkExecutionIds, check_eq_ok, not_or, not_not] at hids
  simp only [checkRowIdentities, bind_eq_ok, check_eq_ok, not_not] at hrows
  obtain ⟨expected, hexpected, -, rfl, -⟩ := hrows
  obtain rfl := Except.ok.inj hcounts
  refine ⟨⟨hdefinition, hruns, hexpected, hids.1.symm, hselected, rfl, rfl, heffective, hproducer,
    hdata⟩, ?_⟩
  rintro rfl
  exact hcomplete

theorem Validated.length_trials (h : Validated L evidence counts) :
    (evidence.trials.length : ℤ) = evidence.searchFamilyDefinition.runTotal := by
  have hlength := length_expectedExecutionIdentityRows h.rows
  rwa [List.length_map] at hlength

/-- In a complete ledger only the cap keeps an execution from being attempted. -/
theorem Validated.attempted_add_capped (h : Validated L evidence counts)
    (hcomplete : checkComplete evidence counts = .ok ()) :
    counts.attemptedExecutions + countStatus evidence.trials (· = .executionCap) =
      evidence.searchFamilyDefinition.runTotal := by
  simp only [checkComplete, check_eq_ok, not_not] at hcomplete
  have hmissing := hcomplete.2.2.1
  rw [h.missing] at hmissing
  have hadd := countStatus_add evidence.trials
  rw [hmissing, h.length_trials, ← h.attempted] at hadd
  omega

/-- What a family counts for is no less than what was attempted. -/
theorem Validated.attempted_le_effective (h : Validated L evidence counts) :
    counts.attemptedExecutions ≤ counts.effectiveNTrials := by
  have hadd := countStatus_add evidence.trials
  have hle := h.definition.runTotal_le_trialCount
  have hcapped : 0 ≤ countStatus evidence.trials (· = .executionCap) := Int.natCast_nonneg _
  have hmissing : 0 ≤ countStatus evidence.trials (· = .missingTerminal) := Int.natCast_nonneg _
  rw [h.length_trials, ← h.attempted] at hadd
  rw [h.effective]
  omega

/-- The executions that were attempted are those that the family counts for, if and only if the
family is not cumulative and the cap cut off none. -/
theorem Validated.effective_eq_attempted_iff (h : Validated L evidence counts)
    (hcomplete : checkComplete evidence counts = .ok ()) :
    counts.effectiveNTrials = counts.attemptedExecutions ↔
      evidence.searchFamilyDefinition.familyPolicy.mode ≠ .cumulative ∧
        ∀ row ∈ evidence.trials, row.terminalDisposition ≠ .executionCap := by
  have hadd := h.attempted_add_capped hcomplete
  have hle := h.definition.runTotal_le_trialCount
  have hcapped : 0 ≤ countStatus evidence.trials (· = .executionCap) := Int.natCast_nonneg _
  have hnone : countStatus evidence.trials (· = .executionCap) = 0 ↔
      ∀ row ∈ evidence.trials, row.terminalDisposition ≠ .executionCap := by
    simp [countStatus, List.countP_eq_zero]
  rw [← h.definition.trialCount_eq_iff, ← hnone, h.effective]
  omega

end
/-! ## Families of a few executions -/

namespace Sample

def laboratory : Laboratory ℕ where
  familyDefinitionId definition := "sfd_" ++ toString definition.points.length
  snapshotSetHash members := toString members.length
  evidenceSetHash members := toString members.length
  codeIdentity _ := .ok ()
  sweepDerivation _ := .ok ()
  strategy _ := some { normalized := id, generatorSha256 := "g" }
  executionHash family symbol flatIndex := family ++ symbol ++ toString flatIndex
  evidenceHash body := body.searchFamilyId ++ toString body.trials.length
  sourceDigest name := "d" ++ name
  libraryVersion _ := "2.0"
  pythonVersion := "3.11"
  researchCodeIdentity := "c"

def familyPolicy : Mode → FamilyPolicy
  | .independent => ⟨.independent, "", "", 0⟩
  | mode => ⟨mode, "sfd_0", "stept_0", 1⟩

/-- One point for each of the parameters. -/
def definition (mode : Mode) (params : List ℕ) : Definition ℕ where
  schema := .compact
  origin := .sweep { setupFamily := "range_breakout", backend := "cpu", timeframe := "1h" }
  points := params.mapIdx fun index value =>
    { flatIndex := index, family := "", params := value, preDisposition := .selected,
      reason := "selected" }
  pointLedger := { recordCount := params.length, dispositionCounts := ⟨params.length, 0, 0, 0⟩,
                   reasonCounts := [("selected", params.length)] }
  selectedFlatIndices := (List.range params.length).map Int.ofNat
  symbols := ["BTC"]
  filters := []
  resourcePolicy := { selectedVariantCount := params.length, selectedRunTotal := params.length,
                      executionCap := 0 }
  familyPolicy := familyPolicy mode
  dataBinding := { snapshotId := "s", evidenceHash := "e", members := [], status := .bound }

def execution (params : List ℕ) : Execution where
  requestedBackend := "cpu"
  resolvedBackend := .cpu
  backendName := "numpy"
  signalBackend := .cpu
  signalKernel := .strategyGenerator
  signalBackendReason := .resolvedCpu
  signalCandleCount := 100
  signalFamilyVariantCount := params.length
  simulationBackend := .cpu
  simulator := .cpuSimulator
  terminalPhase := .completed

def code : CodeIdentity where
  runtimeSources := Laboratory.runtimeSourceNames.map fun name => (name, "d" ++ name)
  strategyGenerators := [("range_breakout", "g")]

def familyId (params : List ℕ) : String := "sfd_" ++ toString params.length

def trialId (params : List ℕ) (index : ℕ) : String :=
  laboratory.executionId (familyId params) "BTC" index

def row (params : List ℕ) (index value : ℕ) : TrialRow ℕ where
  ordinal := index
  executionId := trialId params index
  flatIndex := index
  symbol := "BTC"
  family := "range_breakout"
  params := value
  runId := "r" ++ toString index
  terminalDisposition := .evaluated
  reason := "completed_evaluation"
  decision := "OBSERVE"
  validationStatus := "FORWARD_PAPER"
  dataSnapshotId := "s"
  dataEvidenceHash := "e"
  familyDataSnapshotId := "s"
  familyDataEvidenceHash := "e"
  dataBindingStatus := .bound
  executionIdentity := laboratory.perExecutionIdentity (execution params) "range_breakout" code

def runtime (params : List ℕ) : RuntimeMeta where
  nVariantsEvaluated := .number params.length
  backendName := "none"
  effectiveBackend := "cpu"
  resolvedBackend := "cpu"
  signalBackend := "cpu"
  simulationBackend := "cpu"

def pre (params : List ℕ) : PreCounts := ⟨params.length, 0, 0, params.length, params.length, 0⟩

def evidence (mode : Mode) (params : List ℕ) : Evidence ℕ where
  schema := .current
  experimentId := "x"
  searchFamilyId := familyId params
  multipleTestingFamilyHash := familyId params
  searchFamilyDefinition := definition mode params
  searchSpace := ledgerCounts (pre params) (params.mapIdx (row params))
    (definition mode params).trialCount
  runtime := runtime params
  executionIdentity := ⟨"cpu", "cpu", "cpu", "numpy", "2.0", "2.0", "3.11", "c"⟩
  codeIdentity := code
  trials := params.mapIdx (row params)
  searchTrialEvidenceId := "ste_" ++ familyId params ++ toString params.length

end Sample
end ResearchLab.Search
