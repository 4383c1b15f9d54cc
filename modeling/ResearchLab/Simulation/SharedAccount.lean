import Mathlib
import ResearchLab.Foundation.Sorting
import ResearchLab.Simulation.Manifests

/-!
# One account for all trades

`allocate_shared_account` reserves capacity in chronological order and rejects what does not fit;
`chronological_compounded_metrics` replays an allocation before it compounds its returns. The
text of a float is a parameter.
-/
namespace ResearchLab.Simulation
open Foundation

structure AccountRequest where
  id : Option String
  entryTs : ℤ
  exitTs : ℤ
  requestedCapacity : ℚ
  returnPct : Option ℚ
  deriving DecidableEq

/-- `str(item.get("id") or "")`. -/
def AccountRequest.name (r : AccountRequest) : String := r.id.getD ""

inductive DecisionStatus
  | accepted | rejectedInsufficientCapacity
  deriving DecidableEq

def DecisionStatus.text : DecisionStatus → String
  | .accepted => "accepted"
  | .rejectedInsufficientCapacity => "rejected_insufficient_capacity"

structure Decision where
  id : String
  entryTs : ℤ
  exitTs : ℤ
  requestedCapacity : ℚ
  availableCapacity : ℚ
  allocatedCapacity : ℚ
  status : DecisionStatus
  returnPct : ℚ
  deriving DecidableEq

/-- The active reservations and the decisions so far. -/
structure AccountState where
  active : List Decision := []
  decisions : List Decision := []

/-- What `available + 1e-12` adds. -/
def slack : ℚ := 1 / 10 ^ 12

/-- The decision about a request while some reservations are active. -/
def decideRequest (capacity : ℚ) (active : List Decision) (request : AccountRequest) : Decision :=
  let available := max 0 (capacity - (active.map Decision.allocatedCapacity).sum)
  let accepted := request.requestedCapacity ≤ available + slack
  { id := request.name
    entryTs := request.entryTs
    exitTs := request.exitTs
    requestedCapacity := request.requestedCapacity
    availableCapacity := roundTo 12 available
    allocatedCapacity := if accepted then request.requestedCapacity else 0
    status := if accepted then .accepted else .rejectedInsufficientCapacity
    returnPct := request.returnPct.getD 0 }

/-- One turn of the loop of `allocate_shared_account`. -/
def allocateRequest (capacity : ℚ) (st : AccountState) (request : AccountRequest) :
    Except String AccountState :=
  if request.exitTs ≤ request.entryTs ∨ request.requestedCapacity ≤ 0 then
    .error "account request interval and capacity must be valid"
  else
    let active := st.active.filter fun item => request.entryTs < item.exitTs
    let decision := decideRequest capacity active request
    .ok
      { active := if decision.status = .accepted then active ++ [decision] else active
        decisions := st.decisions ++ [decision] }

/-- The sort key of the requests. -/
def AccountRequest.key (r : AccountRequest) : ℤ ×ₗ String := toLex (r.entryTs, r.name)

structure Allocation where
  schema : String
  accountModelId : String
  policy : String
  accountCapacity : ℚ
  simulatorManifest : Manifest
  decisions : List Decision
  allocationId : String
  deriving DecidableEq

section
variable (sha256 : String → String) (repr : ℚ → List Char)

def manifestJson (m : Manifest) : Json ℚ :=
  .obj [("schema", .str m.schema), ("simulator_model_id", .str m.simulatorModelId),
    ("evidence_tier", .str m.evidenceTier),
    ("policies", .obj (m.policies.map fun p => (p.1, .str p.2))),
    ("unsupported_dimensions", .arr (m.unsupportedDimensions.map .str)),
    ("claim_ceiling", .str m.claimCeiling), ("manifest_id", .str m.manifestId)]

def decisionJson (d : Decision) : Json ℚ :=
  .obj [("id", .str d.id), ("entry_ts", .int d.entryTs), ("exit_ts", .int d.exitTs),
    ("requested_capacity", .float d.requestedCapacity),
    ("available_capacity", .float d.availableCapacity),
    ("allocated_capacity", .float d.allocatedCapacity), ("status", .str d.status.text),
    ("return_pct", .float d.returnPct)]

/-- The identity of an allocation: the digest of the rest of it. -/
def allocationId (a : Allocation) : String :=
  "alloc_" ++ sha256 (String.ofList (Json.dumps (Json.canonical repr)
    (.obj [("schema", .str a.schema), ("account_model_id", .str a.accountModelId),
      ("policy", .str a.policy), ("account_capacity", .float a.accountCapacity),
      ("simulator_manifest", manifestJson a.simulatorManifest),
      ("decisions", .arr (a.decisions.map decisionJson))])))

/-- The allocation that a run of the loop ends with. -/
def allocationOf (capacity : ℚ) (manifest : Manifest) (decisions : List Decision) : Allocation :=
  let a : Allocation :=
    { schema := "SharedAccountAllocation.v2"
      accountModelId := "shared_capacity_reject_if_insufficient.v2"
      policy := "reject_if_insufficient"
      accountCapacity := capacity
      simulatorManifest := manifest
      decisions
      allocationId := "" }
  { a with allocationId := allocationId sha256 repr a }

def allocateSharedAccount (requests : List AccountRequest) (simulatorManifest : Manifest)
    (accountCapacity : ℚ) : Except String Allocation :=
  if accountCapacity ≤ 0 then .error "account capacity must be positive and finite"
  else do
    let manifest ← validateSimulatorAssumptionManifest sha256 simulatorManifest
    let st ← (sortOn AccountRequest.key requests).foldlM (allocateRequest accountCapacity) {}
    return allocationOf sha256 repr accountCapacity manifest st.decisions

/-! ## Compounded metrics -/

structure EquityEvent where
  id : String
  exitTs : ℤ
  accountWeight : ℚ
  returnPct : ℚ
  equity : ℚ

structure EquityMetrics where
  schema : String
  allocationPolicy : String
  accountModelId : String
  allocationId : String
  simulatorManifest : Manifest
  unsupportedSimulatorDimensions : List String
  equityCurve : List ℚ
  events : List EquityEvent
  endingEquity : ℚ
  totalReturnPct : ℚ
  maxDrawdownPct : ℚ

structure EquityState where
  equity : ℚ := 1
  peak : ℚ := 1
  maxDrawdown : ℚ := 0
  curve : List ℚ := [1]
  events : List EquityEvent := []

/-- One turn of the loop over the accepted decisions. -/
def compound (capacity : ℚ) (st : EquityState) (item : Decision) : EquityState :=
  let weight := item.allocatedCapacity / capacity
  let equity := st.equity * (1 + weight * item.returnPct / 100)
  let peak := max st.peak equity
  { equity
    peak
    maxDrawdown := max st.maxDrawdown ((peak - equity) / peak * 100)
    curve := st.curve ++ [equity]
    events := st.events ++ [⟨item.id, item.exitTs, weight, item.returnPct, equity⟩] }

def Decision.exitKey (d : Decision) : ℤ ×ₗ (ℤ ×ₗ String) := toLex (d.exitTs, toLex (d.entryTs, d.id))

/-- The request that a replay makes of a decision. -/
def Decision.replay (d : Decision) : AccountRequest :=
  ⟨some d.id, d.entryTs, d.exitTs, d.requestedCapacity, some d.returnPct⟩

def chronologicalCompoundedMetrics (allocation : Allocation) : Except String EquityMetrics :=
  let capacity := allocation.accountCapacity
  if allocation.schema ≠ "SharedAccountAllocation.v2" then
    .error "shared account allocation evidence is required"
  else if capacity ≤ 0 then .error "account capacity must be positive"
  else do
    let manifest ← validateSimulatorAssumptionManifest sha256 allocation.simulatorManifest
    if allocation.allocationId ≠ allocationId sha256 repr allocation then
      .error "shared account allocation identity mismatch"
    else do
      let replay ← allocateSharedAccount sha256 repr (allocation.decisions.map Decision.replay)
        manifest capacity
      if replay ≠ allocation then .error "shared account allocation policy mismatch"
      else
        let accepted := sortOn Decision.exitKey
          (allocation.decisions.filter fun d => d.status = .accepted)
        let st := accepted.foldl (compound capacity) {}
        .ok
          { schema := "ChronologicalEquityMetrics.v2"
            allocationPolicy := allocation.policy
            accountModelId := allocation.accountModelId
            allocationId := allocation.allocationId
            simulatorManifest := manifest
            unsupportedSimulatorDimensions := manifest.unsupportedDimensions
            equityCurve := st.curve
            events := st.events
            endingEquity := roundTo 10 st.equity
            totalReturnPct := roundTo 10 ((st.equity - 1) * 100)
            maxDrawdownPct := roundTo 10 st.maxDrawdown }

end
end ResearchLab.Simulation
