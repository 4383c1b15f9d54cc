import Mathlib
import ResearchLab.Foundation.Checks
import ResearchLab.Foundation.Sorting

/-!
# Search-family definitions

`search_family_definition`: the frozen definition of a search, the checks it has to pass, and the
number of trials it counts for. Hashes, the digests of the compiler's sources and the recompiling
of an embedded sweep are functions of the environment.
-/
namespace ResearchLab.Search
open Foundation

inductive Schema | legacy | compact
  deriving DecidableEq

inductive PreDisposition | selected | schemaInvalid | dependencyInvalid | omittedVariantCap
  deriving DecidableEq

/-- A point of the grid; an empty `family` is an absent one. -/
structure Point (π : Type) where
  flatIndex : ℤ
  family : String
  params : π
  preDisposition : PreDisposition
  reason : String
  deriving DecidableEq

/-- What the embedded `raw_sweep_spec` is read for outside the recompiling of it. -/
structure RawSweep where
  setupFamily : String
  backend : String
  timeframe : String
  deriving DecidableEq

structure DeclaredGrid (π : Type) where
  experimentId : String
  symbols : List String
  families : List String
  parameterGrid : List (String × List π)
  timeframe : String
  filters : List (String × List String)
  maxRuns : ℤ
  backend : String
  deriving DecidableEq

inductive Origin (π : Type)
  | sweep (raw : RawSweep)
  | declaredGrid (declared : DeclaredGrid π)
  deriving DecidableEq

structure DispositionCounts where
  selected : ℤ
  schemaInvalid : ℤ
  dependencyInvalid : ℤ
  omittedVariantCap : ℤ
  deriving DecidableEq

/-- The compact ledger of all points of a sweep, of which only the selected ones are kept. -/
structure PointLedger where
  recordCount : ℤ
  dispositionCounts : DispositionCounts
  reasonCounts : List (String × ℤ)
  deriving DecidableEq

structure ResourcePolicy where
  selectedVariantCount : ℤ
  selectedRunTotal : ℤ
  executionCap : ℤ
  deriving DecidableEq

inductive Mode | independent | cumulative | confirmatory
  deriving DecidableEq

/-- The policy of a family; the names of its parent are stripped of blanks. -/
structure FamilyPolicy where
  mode : Mode
  parentFamilyId : String
  parentTrialId : String
  parentEffectiveNTrials : ℤ
  deriving DecidableEq

structure Member where
  symbol : String
  timeframe : String
  snapshotId : String
  evidenceHash : String
  rowCount : ℤ
  deriving DecidableEq

inductive BindingStatus | bound | selectionPending
  deriving DecidableEq

structure DataBinding where
  snapshotId : String
  evidenceHash : String
  members : List Member
  status : BindingStatus
  deriving DecidableEq

structure Definition (π : Type) where
  schema : Schema
  origin : Origin π
  points : List (Point π)
  pointLedger : PointLedger
  selectedFlatIndices : List ℤ
  symbols : List String
  filters : List (String × List String)
  resourcePolicy : ResourcePolicy
  familyPolicy : FamilyPolicy
  dataBinding : DataBinding
  deriving DecidableEq

/-- The counts that the validation of a definition returns. -/
structure PreCounts where
  rawPoints : ℤ
  schemaInvalid : ℤ
  dependencyInvalid : ℤ
  eligiblePoints : ℤ
  selectedPoints : ℤ
  omittedVariantCap : ℤ
  deriving DecidableEq

/-- What a definition is checked against: content hashes, the digests of the compiler's sources and
the recompiled sweep. -/
structure Compiler (π : Type) where
  familyDefinitionId : Definition π → String
  snapshotSetHash : List Member → String
  evidenceSetHash : List Member → String
  codeIdentity : Definition π → Except String Unit
  sweepDerivation : Definition π → Except String Unit

variable {π : Type}

namespace Origin

/-- `raw_sweep_spec.setup_family`: the family of the points that name none. -/
def defaultFamily : Origin π → String
  | .sweep raw => raw.setupFamily
  | .declaredGrid _ => ""

def timeframe : Origin π → String
  | .sweep raw => raw.timeframe
  | .declaredGrid declared => declared.timeframe

def backend : Origin π → String
  | .sweep raw => raw.backend
  | .declaredGrid declared => declared.backend

end Origin

namespace Definition

/-- The points selected before any execution. -/
def selected (definition : Definition π) : List (Point π) :=
  definition.points.filter (·.preDisposition = .selected)

/-- `point.get("family") or default_family`. -/
def familyOf (definition : Definition π) (point : Point π) : String :=
  if point.family = "" then definition.origin.defaultFamily else point.family

end Definition

/-! ## Bindings to candle snapshots -/

def normalizeSnapshotBindings (bindings : List Member) : Except String (List Member) :=
  let normalized := sortOn (fun item => toLex (item.symbol, item.timeframe)) bindings
  if normalized = [] ∨ ∃ item ∈ normalized, item.symbol = "" ∨ item.timeframe = "" ∨
      item.snapshotId = "" ∨ item.evidenceHash = "" ∨ item.rowCount < 1 then
    .error "complete symbol-level candle snapshot bindings are required"
  else if ¬(normalized.map fun item => (item.symbol, item.timeframe)).Nodup then
    .error "duplicate symbol/timeframe candle snapshot binding"
  else .ok normalized

/-- The identity of the candle snapshots of a family. -/
def snapshotSetIdentity (C : Compiler π) (bindings : List Member) :
    Except String (String × String) := do
  let normalized ← normalizeSnapshotBindings bindings
  match normalized with
  | [member] => .ok (member.snapshotId, member.evidenceHash)
  | _ => .ok ("csmset_" ++ C.snapshotSetHash normalized, "cse_" ++ C.evidenceSetHash normalized)

/-! ## The checks of a definition -/

def countDisposition (definition : Definition π) (disposition : PreDisposition) : ℤ :=
  (definition.points.countP (·.preDisposition = disposition) : ℕ)

def checkLegacyPoints (definition : Definition π) : Except String PointLedger :=
  if definition.points = [] then .error "search family definition has no points"
  else if definition.points.map Point.flatIndex ≠
      (List.range definition.points.length).map Int.ofNat then
    .error "search family flat indices must be unique and contiguous"
  else if ∃ point ∈ definition.points, point.reason = "" then
    .error "search family point reason is required"
  else if definition.selectedFlatIndices ≠ definition.selected.map Point.flatIndex then
    .error "selected flat indices disagree with point dispositions"
  else .ok {
    recordCount := definition.points.length
    dispositionCounts := {
      selected := countDisposition definition .selected
      schemaInvalid := countDisposition definition .schemaInvalid
      dependencyInvalid := countDisposition definition .dependencyInvalid
      omittedVariantCap := countDisposition definition .omittedVariantCap }
    reasonCounts := [] }

def checkCompactPoints (definition : Definition π) : Except String PointLedger :=
  let ledger := definition.pointLedger
  let counts := ledger.dispositionCounts
  if ledger.recordCount < 1 ∨ counts.selected < 0 ∨ counts.schemaInvalid < 0 ∨
      counts.dependencyInvalid < 0 ∨ counts.omittedVariantCap < 0 ∨
      counts.selected + counts.schemaInvalid + counts.dependencyInvalid +
        counts.omittedVariantCap ≠ ledger.recordCount ∨
      (∃ entry ∈ ledger.reasonCounts, entry.1 = "" ∨ entry.2 < 1) ∨
      (ledger.reasonCounts.map Prod.snd).sum ≠ ledger.recordCount then
    .error "compact search family point ledger counts are invalid"
  else if ∃ point ∈ definition.points, point.preDisposition ≠ .selected ∨ point.reason = "" then
    .error "compact selected point is invalid"
  else if definition.points.map Point.flatIndex ≠ definition.selectedFlatIndices then
    .error "selected flat indices disagree with compact point ledger"
  else if counts.selected ≠ definition.selectedFlatIndices.length then
    .error "compact selected point count mismatch"
  else .ok ledger

/-- The points of a definition, by the rules of its schema. -/
def checkPoints (definition : Definition π) : Except String PointLedger :=
  if ¬definition.selectedFlatIndices.Pairwise (· < ·) then
    .error "selected flat indices must be sorted and unique"
  else
    match definition.schema with
    | .legacy => checkLegacyPoints definition
    | .compact => checkCompactPoints definition

def checkResources (definition : Definition π) : Except String Unit :=
  let resource := definition.resourcePolicy
  if resource.selectedVariantCount ≠ definition.selectedFlatIndices.length then
    .error "selected variant count mismatch"
  else if definition.symbols = [] then .error "search family symbol scope is missing"
  else if resource.selectedRunTotal ≠
      definition.symbols.length * definition.selectedFlatIndices.length then
    .error "selected run count mismatch"
  else .ok ()

/-- `_family_policy`. -/
def checkFamilyPolicy (policy : FamilyPolicy) : Except String Unit :=
  if policy.mode = .independent ∧ (policy.parentFamilyId ≠ "" ∨ policy.parentTrialId ≠ "") then
    .error "independent family cannot declare a parent"
  else if policy.mode = .independent ∧ policy.parentEffectiveNTrials ≠ 0 then
    .error "independent family cannot inherit prior trials"
  else if policy.mode ≠ .independent ∧ ¬(policy.parentFamilyId ≠ "" ∧ policy.parentTrialId ≠ "") then
    .error "follow-up family requires parent_family_id and parent_trial_id"
  else if policy.mode = .cumulative ∧ policy.parentEffectiveNTrials < 1 then
    .error "cumulative family requires parent_effective_n_trials"
  else if policy.mode = .confirmatory ∧ policy.parentEffectiveNTrials < 1 then
    .error "confirmatory family requires parent trial accounting"
  else .ok ()

def checkPolicy (definition : Definition π) : Except String Unit := do
  checkFamilyPolicy definition.familyPolicy
  if definition.familyPolicy.mode = .confirmatory ∧
      definition.resourcePolicy.selectedRunTotal ≠ 1 then
    .error "confirmatory family must declare exactly one selected execution"
  else .ok ()

def checkMembers (C : Compiler π) (definition : Definition π) : Except String Unit := do
  let binding := definition.dataBinding
  let normalized ← normalizeSnapshotBindings binding.members
  if binding.members ≠ normalized then
    .error "search family snapshot members are not canonical"
  else
    let identity ← snapshotSetIdentity C binding.members
    if identity ≠ (binding.snapshotId, binding.evidenceHash) then
      .error "search family snapshot set identity mismatch"
    else if binding.members.map Member.symbol ≠ sortOn id definition.symbols then
      .error "search family snapshot members disagree with symbol scope"
    else .ok ()

def checkBinding (C : Compiler π) (definition : Definition π) : Except String Unit :=
  let binding := definition.dataBinding
  if binding.status = .bound ∧ ¬(binding.snapshotId ≠ "" ∧ binding.evidenceHash ≠ "") then
    .error "bound search family data identity is incomplete"
  else if binding.members ≠ [] then checkMembers C definition
  else if binding.status = .selectionPending ∧
      (binding.snapshotId ≠ "" ∨ binding.evidenceHash ≠ "") then
    .error "pending search family has partial data identity"
  else .ok ()

/-- The points that a declared grid stands for: its families in order, each with its rows. -/
def DeclaredGrid.rows (declared : DeclaredGrid π) : List (String × π) :=
  declared.families.flatMap fun family =>
    ((declared.parameterGrid.lookup family).getD []).map fun params => (family, params)

def DeclaredGrid.expectedPoints (declared : DeclaredGrid π) : List (Point π) :=
  declared.rows.mapIdx fun index row =>
    { flatIndex := index, family := row.1, params := row.2, preDisposition := .selected,
      reason := "declared_grid_point" }

def declaredGridDerivation [DecidableEq π] (definition : Definition π)
    (declared : DeclaredGrid π) : Except String Unit :=
  if definition.points ≠ declared.expectedPoints then
    .error "declared-grid points disagree with declared source"
  else if definition.symbols ≠ declared.symbols then
    .error "declared-grid symbols disagree with declared source"
  else if definition.filters ≠ declared.filters then
    .error "declared-grid filters disagree with declared source"
  else .ok ()

def checkDerivation [DecidableEq π] (C : Compiler π) (definition : Definition π) :
    Except String Unit :=
  match definition.origin with
  | .sweep _ => C.sweepDerivation definition
  | .declaredGrid declared => declaredGridDerivation definition declared

def PointLedger.preCounts (ledger : PointLedger) (definition : Definition π) : PreCounts where
  rawPoints := ledger.recordCount
  schemaInvalid := ledger.dispositionCounts.schemaInvalid
  dependencyInvalid := ledger.dispositionCounts.dependencyInvalid
  eligiblePoints := ledger.dispositionCounts.selected + ledger.dispositionCounts.omittedVariantCap
  selectedPoints := definition.selectedFlatIndices.length
  omittedVariantCap := ledger.dispositionCounts.omittedVariantCap

/-- `validate_search_family_definition`; an empty `expectedId` is not compared. -/
def validateSearchFamilyDefinition [DecidableEq π] (C : Compiler π) (definition : Definition π)
    (expectedId : String) : Except String PreCounts := do
  let ledger ← checkPoints definition
  checkResources definition
  checkPolicy definition
  checkBinding C definition
  C.codeIdentity definition
  checkDerivation C definition
  if expectedId ≠ "" ∧ C.familyDefinitionId definition ≠ expectedId then
    .error "search family definition id mismatch"
  else .ok (ledger.preCounts definition)

/-- `effective_family_n_trials`. -/
def effectiveFamilyNTrials [DecidableEq π] (C : Compiler π) (definition : Definition π) :
    Except String ℤ := do
  let _ ← validateSearchFamilyDefinition C definition ""
  let policy := definition.familyPolicy
  let selected := definition.resourcePolicy.selectedRunTotal
  if policy.mode = .confirmatory then .ok 1
  else if selected < 1 then .error "search family has no selected trials"
  else if policy.mode = .cumulative then .ok (policy.parentEffectiveNTrials + selected)
  else .ok selected

/-! ## What a valid definition guarantees -/

/-- The facts about a definition that its validation establishes. -/
structure Definition.Valid (C : Compiler π) (definition : Definition π) : Prop where
  indices : definition.selectedFlatIndices = definition.selected.map Point.flatIndex
  ascending : definition.selectedFlatIndices.Pairwise (· < ·)
  scope : definition.symbols ≠ []
  runs : definition.resourcePolicy.selectedRunTotal =
    definition.symbols.length * definition.selected.length
  policy : checkPolicy definition = .ok ()
  binding : checkBinding C definition = .ok ()

theorem checkPoints_indices {definition : Definition π} {ledger : PointLedger}
    (h : checkPoints definition = .ok ledger) :
    definition.selectedFlatIndices = definition.selected.map Point.flatIndex ∧
      definition.selectedFlatIndices.Pairwise (· < ·) := by
  simp only [checkPoints, check_eq_ok, not_not] at h
  obtain ⟨hascending, h⟩ := h
  refine ⟨?_, hascending⟩
  cases hschema : definition.schema with
  | legacy =>
    simp only [hschema, checkLegacyPoints, check_eq_ok, not_not] at h
    exact h.2.2.2.1
  | compact =>
    simp only [hschema, checkCompactPoints, check_eq_ok, not_not] at h
    obtain ⟨-, hselected, hindices, -⟩ := h
    have hall : definition.selected = definition.points := by
      refine List.filter_eq_self.2 fun point hpoint => ?_
      have hpoint := fun hne => hselected ⟨point, hpoint, .inl hne⟩
      simpa using hpoint
    rw [hall, hindices]

theorem validateSearchFamilyDefinition_ok [DecidableEq π] {C : Compiler π}
    {definition : Definition π} {expectedId : String} {counts : PreCounts}
    (h : validateSearchFamilyDefinition C definition expectedId = .ok counts) :
    definition.Valid C ∧ counts.selectedPoints = definition.selected.length := by
  simp only [validateSearchFamilyDefinition, bind_eq_ok, check_eq_ok, Except.ok.injEq] at h
  obtain ⟨ledger, hpoints, _, hresources, _, hpolicy, _, hbinding, _, -, _, -, -, rfl⟩ := h
  obtain ⟨hindices, hascending⟩ := checkPoints_indices hpoints
  have hlength : definition.selectedFlatIndices.length = definition.selected.length := by
    rw [hindices, List.length_map]
  simp only [checkResources, check_eq_ok, not_not] at hresources
  obtain ⟨-, hscope, hruns, -⟩ := hresources
  refine ⟨⟨hindices, hascending, hscope, ?_, hpolicy, hbinding⟩, ?_⟩
  · rw [hruns, hlength]
  · simp only [PointLedger.preCounts, hlength]

section
variable {C : Compiler π} {definition : Definition π}

/-- The number of selected executions of a family. -/
def Definition.runTotal (definition : Definition π) : ℤ :=
  definition.symbols.length * definition.selected.length

theorem Definition.Valid.confirmatory (h : definition.Valid C)
    (hmode : definition.familyPolicy.mode = .confirmatory) : definition.runTotal = 1 := by
  have hpolicy := h.policy
  simp only [checkPolicy, bind_eq_ok, check_eq_ok, not_and, not_not] at hpolicy
  obtain ⟨-, -, hone, -⟩ := hpolicy
  rw [Definition.runTotal, ← h.runs]
  exact hone hmode

theorem Definition.Valid.parent (h : definition.Valid C)
    (hmode : definition.familyPolicy.mode = .cumulative) :
    1 ≤ definition.familyPolicy.parentEffectiveNTrials := by
  have hpolicy := h.policy
  simp only [checkPolicy, checkFamilyPolicy, bind_eq_ok, check_eq_ok] at hpolicy
  obtain ⟨-, ⟨-, -, -, hparent, -⟩, -⟩ := hpolicy
  by_contra hlt
  exact hparent ⟨hmode, by omega⟩

/-- What a family counts for: its own executions and, if it is cumulative, those of its parent. -/
def Definition.trialCount (definition : Definition π) : ℤ :=
  match definition.familyPolicy.mode with
  | .confirmatory => 1
  | .cumulative => definition.familyPolicy.parentEffectiveNTrials + definition.runTotal
  | .independent => definition.runTotal

theorem effectiveFamilyNTrials_ok [DecidableEq π] {n : ℤ} (h : effectiveFamilyNTrials C definition = .ok n) :
    definition.Valid C ∧ n = definition.trialCount ∧ 1 ≤ definition.runTotal := by
  simp only [effectiveFamilyNTrials, bind_eq_ok] at h
  obtain ⟨counts, hvalid, h⟩ := h
  have hvalid := (validateSearchFamilyDefinition_ok hvalid).1
  have hruns : definition.resourcePolicy.selectedRunTotal = definition.runTotal := hvalid.runs
  rw [hruns] at h
  refine ⟨hvalid, ?_⟩
  cases hmode : definition.familyPolicy.mode with
  | independent =>
    simp only [hmode, reduceCtorEq, if_false, check_eq_ok, Except.ok.injEq] at h
    simp only [Definition.trialCount, hmode]
    omega
  | cumulative =>
    simp only [hmode, reduceCtorEq, if_false, if_true, check_eq_ok, Except.ok.injEq] at h
    simp only [Definition.trialCount, hmode]
    omega
  | confirmatory =>
    simp only [hmode, if_true, Except.ok.injEq] at h
    simp only [Definition.trialCount, hmode]
    exact ⟨h.symm, (hvalid.confirmatory hmode).ge⟩

/-- A family counts for at least its own executions. -/
theorem Definition.Valid.runTotal_le_trialCount (h : definition.Valid C) :
    definition.runTotal ≤ definition.trialCount := by
  cases hmode : definition.familyPolicy.mode with
  | independent => simp [Definition.trialCount, hmode]
  | cumulative =>
    have hparent := h.parent hmode
    simp only [Definition.trialCount, hmode]
    omega
  | confirmatory => simp [Definition.trialCount, hmode, h.confirmatory hmode]

/-- A family counts for more than its own executions if and only if it is cumulative. -/
theorem Definition.Valid.trialCount_eq_iff (h : definition.Valid C) :
    definition.trialCount = definition.runTotal ↔
      definition.familyPolicy.mode ≠ .cumulative := by
  cases hmode : definition.familyPolicy.mode with
  | independent => simp [Definition.trialCount, hmode]
  | cumulative =>
    have hparent := h.parent hmode
    simp only [Definition.trialCount, hmode, ne_eq, not_true_eq_false, iff_false]
    omega
  | confirmatory => simp [Definition.trialCount, hmode, h.confirmatory hmode]

end
end ResearchLab.Search
