import Mathlib
import ResearchLab.Search.Evidence

/-!
# Search-trial panels

`time_aware_validation`: observation sets, the matrix of the returns of a whole search family over
a common time axis, and the validator that recomputes it.
-/
namespace ResearchLab.Search
open Foundation

structure TimeGrid where
  kind : String
  stepMs : Option ℤ
  deriving DecidableEq

/-- A period of a trial; `ρ` are the floating-point returns. -/
structure ObservationBody (ρ : Type) where
  trialId : String
  periodTs : ℤ
  entryTs : ℤ
  exitTs : ℤ
  featureStartTs : ℤ
  featureEndTs : ℤ
  returnValue : ρ
  returnBasis : String
  dataSnapshotId : String
  dataEvidenceHash : String
  deriving DecidableEq

structure Observation (ρ : Type) extends ObservationBody ρ where
  observationId : String
  deriving DecidableEq

structure ObservationSetBody (ρ : Type) where
  schema : String
  trialId : String
  symbol : String
  strategyFamily : String
  timeframe : String
  dataSnapshotId : String
  dataEvidenceHash : String
  searchFamilyId : String
  returnBasis : String
  evaluationWindowId : String
  timeGrid : TimeGrid
  observationCount : ℤ
  observations : List (Observation ρ)
  deriving DecidableEq

structure ObservationSet (ρ : Type) extends ObservationSetBody ρ where
  observationSetId : String
  deriving DecidableEq

/-- What an evaluation window is identified by. -/
structure Window where
  dataSnapshotId : String
  dataEvidenceHash : String
  timeframe : String
  timeGrid : TimeGrid
  firstPeriodTs : ℤ
  lastPeriodTs : ℤ
  deriving DecidableEq

structure IncludedTrial where
  trialId : String
  observationSetId : String
  disposition : Disposition
  deriving DecidableEq

inductive ExclusionReason
  | differentSymbolOrFamilyScope
  | terminal (disposition : Disposition)
  | observationSetMissing
  deriving DecidableEq

structure ExcludedTrial where
  trialId : String
  disposition : Disposition
  reason : ExclusionReason
  deriving DecidableEq

structure Coverage where
  selectedCount : ℤ
  scopeSelectedCount : ℤ
  includedCount : ℤ
  excludedCount : ℤ
  included : List IncludedTrial
  excluded : List ExcludedTrial
  deriving DecidableEq

structure PanelBody (ρ : Type) where
  schema : String
  status : String
  orientation : String
  searchFamilyId : String
  symbol : String
  strategyFamily : String
  timeframe : String
  dataSnapshotId : String
  dataEvidenceHash : String
  evaluationWindowId : String
  returnBasis : String
  timeGrid : TimeGrid
  timeAxis : List ℤ
  trialColumns : List String
  observationSetIds : List String
  observationSets : List (ObservationSet ρ)
  matrix : List (List ρ)
  reportedTimeCount : ℤ
  reportedTrialCount : ℤ
  effectiveFamilyTrialCount : ℤ
  coverage : Coverage
  missingValuePolicy : String
  deriving DecidableEq

structure Panel (ρ : Type) extends PanelBody ρ where
  searchTrialPanelId : String
  deriving DecidableEq

/-- Why a family has no panel. -/
inductive BlockingReason
  | excluded (trial : ExcludedTrial)
  | familyMultiplicity (effective panel : ℤ)
  deriving DecidableEq

structure UnavailablePanel where
  searchFamilyId : String
  effectiveFamilyTrialCount : ℤ
  coverage : Coverage
  blockingReasons : List BlockingReason
  deriving DecidableEq

inductive PanelResult (ρ : Type)
  | valid (panel : Panel ρ)
  | unavailable (panel : UnavailablePanel)
  deriving DecidableEq

/-- Content hashes, and which returns are finite. -/
structure PanelHashes (ρ : Type) where
  finite : ρ → Bool
  observation : ObservationBody ρ → String
  window : Window → String
  observationSet : ObservationSetBody ρ → String
  panel : PanelBody ρ → String

def observationSetSchema : String := "ValidationObservationSet.v2"

def panelSchema : String := "SearchTrialPanel.v2"

variable {π ρ : Type}

/-! ## Observation sets -/

/-- `_validate_time_grid`. -/
def validateTimeGrid (timeAxis : List ℤ) (timeGrid : TimeGrid) : Except String Unit :=
  if timeGrid.kind ≠ "fixed_step" then .error "unsupported_time_grid_policy"
  else
    match timeGrid.stepMs with
    | none => .error "invalid_time_grid_step"
    | some stepMs =>
        if stepMs ≤ 0 then .error "invalid_time_grid_step"
        else if ¬timeAxis.Nodup then .error "duplicate_period_ts"
        else if ¬timeAxis.Pairwise (· ≤ ·) then .error "non_monotonic_period_ts"
        else if ∃ pair ∈ timeAxis.zip timeAxis.tail, pair.2 - pair.1 ≠ stepMs then
          .error "time_grid_gap"
        else .ok ()

section
variable (H : PanelHashes ρ)

def validateObservation (value : ObservationSet ρ) (row : Observation ρ) : Except String Unit :=
  if row.trialId ≠ value.trialId ∨ row.dataSnapshotId ≠ value.dataSnapshotId ∨
      row.dataEvidenceHash ≠ value.dataEvidenceHash ∨ row.returnBasis ≠ value.returnBasis then
    .error "observation_scope_mismatch"
  else if row.entryTs > row.exitTs then .error "reversed_holding_interval"
  else if row.featureStartTs > row.featureEndTs then .error "reversed_feature_interval"
  else if row.featureEndTs > row.entryTs then .error "feature_information_after_entry"
  else if ¬H.finite row.returnValue then .error "invalid_return: return_value"
  else if row.observationId ≠ "vobs_" ++ H.observation row.toObservationBody then
    .error "observation_identity_mismatch"
  else .ok ()

def ObservationSet.axis (value : ObservationSet ρ) : List ℤ :=
  value.observations.map fun row => row.periodTs

/-- The window of a set that has observations. -/
def ObservationSet.window (value : ObservationSet ρ) (first last : Observation ρ) : Window where
  dataSnapshotId := value.dataSnapshotId
  dataEvidenceHash := value.dataEvidenceHash
  timeframe := value.timeframe
  timeGrid := value.timeGrid
  firstPeriodTs := first.periodTs
  lastPeriodTs := last.periodTs

/-- `validate_validation_observation_set`. -/
def validateValidationObservationSet (value : ObservationSet ρ) : Except String Unit :=
  if value.schema ≠ observationSetSchema then .error "observation_schema_mismatch"
  else
    match value.observations with
    | [] => .error "empty_observation_set"
    | first :: rest => do
        if value.observationCount ≠ value.observations.length then
          .error "observation_count_mismatch"
        else if "" ∈ [value.trialId, value.symbol, value.strategyFamily, value.timeframe,
            value.dataSnapshotId, value.dataEvidenceHash, value.evaluationWindowId,
            value.searchFamilyId, value.returnBasis] then
          .error "observation_scope_missing"
        else
          value.observations.forM (validateObservation H value)
          validateTimeGrid value.axis value.timeGrid
          if ¬(value.observations.map fun row => row.entryTs).Pairwise (· ≤ ·) then
            .error "non_monotonic_entry_ts"
          else if value.evaluationWindowId ≠
              "vwin_" ++ H.window (value.window first (rest.getLastD first)) then
            .error "evaluation_window_identity_mismatch"
          else if value.observationSetId ≠
              "vos_" ++ H.observationSet value.toObservationSetBody then
            .error "observation_set_identity_mismatch"
          else .ok ()

end

/-! ## Building a panel -/

/-- The symbol and the strategy family of a set. -/
def ObservationSet.scope (value : ObservationSet ρ) : String × String :=
  (value.symbol, value.strategyFamily)

def TrialRow.scope (row : TrialRow π) : String × String := (row.symbol, row.family)

/-- The one scope of the sets. -/
def targetScope (sets : List (ObservationSet ρ)) : Except String (String × String) :=
  match sets with
  | [] => .error "panel_scope_mismatch"
  | first :: rest =>
      if ∃ value ∈ rest, value.scope ≠ first.scope then .error "panel_scope_mismatch"
      else if first.symbol = "" ∨ first.strategyFamily = "" then .error "panel_scope_mismatch"
      else .ok first.scope

/-- What a row of the evidence says its observation set has to carry: the timeframe, the data
identity and the family. -/
def expectedIdentity (evidence : Evidence π) (row : TrialRow π) : List String :=
  let binding := evidence.searchFamilyDefinition.dataBinding
  [row.symbol, row.family, evidence.searchFamilyDefinition.origin.timeframe,
    if row.dataSnapshotId = "" then binding.snapshotId else row.dataSnapshotId,
    if row.dataEvidenceHash = "" then binding.evidenceHash else row.dataEvidenceHash,
    evidence.searchFamilyId]

def ObservationSet.identity (value : ObservationSet ρ) : List String :=
  [value.symbol, value.strategyFamily, value.timeframe, value.dataSnapshotId,
    value.dataEvidenceHash, value.searchFamilyId]

section
variable (H : PanelHashes ρ)

/-- Where a row of the evidence goes: into the panel, or to the excluded ones. -/
def placeTrial (evidence : Evidence π) (sets : List (ObservationSet ρ)) (target : String × String)
    (row : TrialRow π) : Except String (IncludedTrial ⊕ ExcludedTrial) :=
  let disposition := row.terminalDisposition
  if row.scope ≠ target then
    .ok (.inr ⟨row.executionId, disposition, .differentSymbolOrFamilyScope⟩)
  else if disposition ≠ .evaluated then
    .ok (.inr ⟨row.executionId, disposition, .terminal disposition⟩)
  else
    match sets.find? (·.trialId = row.executionId) with
    | none => .ok (.inr ⟨row.executionId, disposition, .observationSetMissing⟩)
    | some value => do
        if value.identity ≠ expectedIdentity evidence row then
          .error ("panel_scope_mismatch: " ++ row.executionId)
        else
          validateValidationObservationSet H value
          .ok (.inl ⟨row.executionId, value.observationSetId, disposition⟩)

def coverageOf (evidence : Evidence π) (target : String × String)
    (included : List IncludedTrial) (excluded : List ExcludedTrial) : Coverage where
  selectedCount := evidence.trials.length
  scopeSelectedCount := (evidence.trials.countP fun row => row.scope = target : ℕ)
  includedCount := included.length
  excludedCount := excluded.length
  included := sortOn IncludedTrial.trialId included
  excluded := sortOn ExcludedTrial.trialId excluded

def blockingExclusions (effective : ℤ) (included : List IncludedTrial)
    (excluded : List ExcludedTrial) : List BlockingReason :=
  ((excluded.filter fun trial => trial.reason ≠ .differentSymbolOrFamilyScope).map .excluded) ++
    if effective ≠ included.length then [.familyMultiplicity effective included.length] else []

/-- The returns of all columns in one period. -/
def matrixRow (orderedSets : List (ObservationSet ρ)) (t : ℕ) : List ρ :=
  orderedSets.filterMap fun value => (value.observations[t]?).map fun row => row.returnValue

def identifyPanel (body : PanelBody ρ) : Panel ρ :=
  { body with searchTrialPanelId := "stp_" ++ H.panel body }

/-- The payload of a panel whose sets are in the order of their columns. -/
def panelBody (evidence : Evidence π) (target : String × String) (effective : ℤ)
    (coverage : Coverage) (first : ObservationSet ρ) (orderedSets : List (ObservationSet ρ)) :
    PanelBody ρ where
  schema := panelSchema
  status := "valid"
  orientation := "time_major"
  searchFamilyId := evidence.searchFamilyId
  symbol := target.1
  strategyFamily := target.2
  timeframe := evidence.searchFamilyDefinition.origin.timeframe
  dataSnapshotId := evidence.searchFamilyDefinition.dataBinding.snapshotId
  dataEvidenceHash := evidence.searchFamilyDefinition.dataBinding.evidenceHash
  evaluationWindowId := first.evaluationWindowId
  returnBasis := first.returnBasis
  timeGrid := first.timeGrid
  timeAxis := first.axis
  trialColumns := orderedSets.map fun value => value.trialId
  observationSetIds := orderedSets.map ObservationSet.observationSetId
  observationSets := orderedSets
  matrix := (List.range first.axis.length).map (matrixRow orderedSets)
  reportedTimeCount := first.axis.length
  reportedTrialCount := orderedSets.length
  effectiveFamilyTrialCount := effective
  coverage := coverage
  missingValuePolicy := "reject"

def assemblePanel (evidence : Evidence π) (target : String × String) (effective : ℤ)
    (coverage : Coverage) (orderedSets : List (ObservationSet ρ)) : Except String (Panel ρ) :=
  match orderedSets with
  | [] => .error "common_time_axis_mismatch"
  | first :: rest =>
      if ∃ value ∈ rest, value.axis ≠ first.axis then .error "common_time_axis_mismatch"
      else if ∃ value ∈ rest, value.evaluationWindowId ≠ first.evaluationWindowId then
        .error "panel_window_identity_mismatch"
      else if first.evaluationWindowId = "" then .error "panel_window_identity_mismatch"
      else if ∃ value ∈ rest, value.returnBasis ≠ first.returnBasis ∨
          value.timeGrid ≠ first.timeGrid then
        .error "panel_basis_or_grid_mismatch"
      else .ok (identifyPanel H (panelBody evidence target effective coverage first orderedSets))

variable [DecidableEq π] (L : Laboratory π)

/-- `build_search_trial_panel`. -/
def buildSearchTrialPanel (evidence : Evidence π) (sets : List (ObservationSet ρ))
    (allowUnavailable : Bool) : Except String (PanelResult ρ) := do
  match validateSearchTrialEvidence L evidence true with
  | .error e => .error ("family_evidence_invalid: " ++ e)
  | .ok counts =>
      let trialIds := sets.map fun value => value.trialId
      if "" ∈ trialIds ∨ ¬trialIds.Nodup then .error "duplicate_observation_set_trial"
      else
        let target ← targetScope sets
        let placed ← evidence.trials.mapM (placeTrial H evidence sets target)
        let included := placed.filterMap Sum.getLeft?
        let excluded := placed.filterMap Sum.getRight?
        let unknown := trialIds.filter (· ∉ evidence.trials.map fun row => row.executionId)
        if unknown ≠ [] then
          .error ("panel_unknown_trial: " ++ ",".intercalate (sortOn id unknown))
        else
          let coverage := coverageOf evidence target included excluded
          let blocking := blockingExclusions counts.effectiveNTrials included excluded
          if blocking ≠ [] then
            if ¬allowUnavailable then .error "incomplete_family_panel"
            else .ok (.unavailable {
              searchFamilyId := evidence.searchFamilyId
              effectiveFamilyTrialCount := counts.effectiveNTrials
              coverage := coverage
              blockingReasons := blocking })
          else
            let panel ← assemblePanel H evidence target counts.effectiveNTrials coverage
              (sortOn (fun value => value.trialId) sets)
            .ok (.valid panel)

/-! ## The validator of panels -/

def checkPanelColumns (panel : Panel ρ) : Except String Unit :=
  if ¬panel.trialColumns.Pairwise (· < ·) then .error "panel_columns_invalid"
  else if panel.observationSetIds.length ≠ panel.trialColumns.length ∨
      ¬panel.observationSetIds.Nodup then
    .error "panel_observation_sets_invalid"
  else if panel.observationSets.length ≠ panel.trialColumns.length then
    .error "panel_observation_sets_invalid"
  else .ok ()

/-- The trials that a panel of some scope has to have as its columns. -/
def expectedTrials (evidence : Evidence π) (scope : String × String) : List String :=
  sortOn id ((evidence.trials.filter fun row =>
    row.terminalDisposition = .evaluated ∧ row.scope = scope).map fun row => row.executionId)

def checkPanelCounts (panel : Panel ρ) (expected : List String) (effective : ℤ) :
    Except String Unit :=
  if panel.trialColumns ≠ expected then .error "panel_family_columns_mismatch"
  else if panel.reportedTrialCount ≠ panel.trialColumns.length ∨
      panel.reportedTrialCount ≠ expected.length ∨
      panel.effectiveFamilyTrialCount ≠ effective ∨ panel.reportedTrialCount ≠ effective then
    .error "panel_trial_count_mismatch"
  else if panel.reportedTimeCount ≠ panel.timeAxis.length then .error "panel_time_count_mismatch"
  else .ok ()

def checkPanelMatrix (panel : Panel ρ) : Except String Unit :=
  if panel.matrix.length ≠ panel.timeAxis.length ∨
      ∃ row ∈ panel.matrix, row.length ≠ panel.trialColumns.length then
    .error "panel_matrix_shape_mismatch"
  else if ∃ row ∈ panel.matrix, ∃ value ∈ row, ¬H.finite value then
    .error "invalid_return: panel_matrix"
  else .ok ()

def checkPanelScope (panel : Panel ρ) (evidence : Evidence π) : Except String Unit :=
  let definition := evidence.searchFamilyDefinition
  if panel.searchFamilyId ≠ evidence.searchFamilyId then .error "panel_family_identity_mismatch"
  else if panel.timeframe ≠ definition.origin.timeframe ∨
      panel.dataSnapshotId ≠ definition.dataBinding.snapshotId ∨
      panel.dataEvidenceHash ≠ definition.dataBinding.evidenceHash then
    .error "panel_scope_mismatch"
  else .ok ()

def checkPanelCoverage (panel : Panel ρ) (evidence : Evidence π) (expected : List String) :
    Except String Unit :=
  let coverage := panel.coverage
  let included := (panel.trialColumns.zip panel.observationSetIds).map fun (trialId, setId) =>
    (⟨trialId, setId, .evaluated⟩ : IncludedTrial)
  let excluded := sortOn ExcludedTrial.trialId ((evidence.trials.filter fun row =>
      row.scope ≠ (panel.symbol, panel.strategyFamily)).map fun row =>
    (⟨row.executionId, row.terminalDisposition, .differentSymbolOrFamilyScope⟩ : ExcludedTrial))
  if coverage.selectedCount ≠ evidence.trials.length ∨
      coverage.includedCount ≠ panel.trialColumns.length ∨
      coverage.scopeSelectedCount ≠ expected.length ∨
      coverage.includedCount + coverage.excludedCount ≠ coverage.selectedCount then
    .error "panel_coverage_mismatch"
  else if coverage.included ≠ included ∨ coverage.excluded ≠ excluded then
    .error "panel_coverage_mismatch"
  else .ok ()

/-- `validate_search_trial_panel`. -/
def validateSearchTrialPanel [DecidableEq ρ] (panel : Panel ρ) (evidence : Evidence π) :
    Except String Unit := do
  match validateSearchTrialEvidence L evidence true with
  | .error e => .error ("family_evidence_invalid: " ++ e)
  | .ok counts =>
      if panel.schema ≠ panelSchema ∨ panel.status ≠ "valid" then
        .error "panel_schema_or_status_invalid"
      else if panel.orientation ≠ "time_major" then .error "panel_orientation_invalid"
      else
        checkPanelColumns panel
        let expected := expectedTrials evidence (panel.symbol, panel.strategyFamily)
        checkPanelCounts panel expected counts.effectiveNTrials
        checkPanelMatrix H panel
        validateTimeGrid panel.timeAxis panel.timeGrid
        checkPanelScope panel evidence
        checkPanelCoverage panel evidence expected
        if panel.searchTrialPanelId ≠ "stp_" ++ H.panel panel.toPanelBody then
          .error "panel_identity_mismatch"
        else
          let rebuilt ← buildSearchTrialPanel H L evidence panel.observationSets false
          if rebuilt ≠ .valid panel then .error "panel_recomputation_mismatch" else .ok ()

end
end ResearchLab.Search
