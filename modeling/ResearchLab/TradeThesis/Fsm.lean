import Mathlib
import ResearchLab.Foundation.JsonLoads
import ResearchLab.Foundation.Sorting

/-!
# The replay of a symbol's observations

`replay_symbol_fsm` over the paper trades of one symbol, and the thesis that stores its outcome.
-/
namespace ResearchLab.TradeThesis
open Foundation

/-! ## Rows of the ledger -/

/-- A creation time of the ledger: a number of seconds or a text. -/
inductive Created where
  | seconds (value : ℚ)
  | text (value : String)
deriving DecidableEq

/-- An item of the paper trade ledger, with the absent texts empty. -/
structure Row where
  sourceSignalId : String
  paperProductTradeId : String
  okxInstId : String
  symbol : String
  side : String
  timeframe : String
  status : String
  source : String
  setupFamily : String
  sourceCreatedAt : Option Created
  createdAt : Option Created
  dataQuality : String
  dataQualityFlags : List String
  liveReady : Bool
  readyStrategyId : String
  entry : Option ℚ
  stop : Option ℚ
  takeProfitPlan : List ℚ
  result : String
  netPct : Option ℚ
deriving DecidableEq

/-- What the state hash reads of a signal. -/
structure SignalState where
  id : String
  side : String
  timeframe : String
  status : String
  entry : Option ℚ
  stop : Option ℚ
  targets : List ℚ
deriving DecidableEq

/-- What the id of an event is made of. -/
inductive EventPayload where
  | opened (thesisId : String)
  | updated (thesisId stateHash : String)
  | closed (thesisId result : String)
  | signal (thesisId signalId eventType action : String)
deriving DecidableEq

/-- `datetime.fromtimestamp(value, tz=timezone.utc).isoformat()`, and the digests that `stable_id`
puts behind its prefixes. -/
structure Env where
  isoformat : ℚ → String
  thesisDigest : (symbol startedAt : String) → String
  stateDigest : (symbol primarySignalId : String) → List SignalState → String
  eventDigest : EventPayload → String

def timeframeRank : List (String × ℕ) :=
  [("1m", 1), ("3m", 2), ("5m", 3), ("15m", 4), ("30m", 5), ("1h", 6), ("2h", 7), ("4h", 8), ("1d", 9)]

def tfRank (timeframe : String) : ℕ := (timeframeRank.lookup (lower (strip timeframe))).getD 0

/-- The identity of a row: `source_signal_id or paper_product_trade_id`. -/
def Row.signalId (row : Row) : String :=
  if row.sourceSignalId ≠ "" then row.sourceSignalId else row.paperProductTradeId

def Row.signalState (row : Row) : SignalState :=
  ⟨row.signalId, row.side, row.timeframe, row.status, row.entry, row.stop, row.takeProfitPlan⟩

def Created.truthy : Created → Bool
  | .seconds value => value ≠ 0
  | .text value => value ≠ ""

def Created.sortKey (env : Env) : Created → String
  | .seconds value => env.isoformat value
  | .text value => value

/-- `_created_sort_key`. -/
def createdSortKey (env : Env) (row : Row) : String :=
  match row.sourceCreatedAt.filter Created.truthy with
  | some created => created.sortKey env
  | none => (row.createdAt.map (Created.sortKey env)).getD ""

def isDegraded (row : Row) : Bool :=
  decide (lower row.dataQuality ∈ ["degraded", "missing", "invalid"]) || !row.dataQualityFlags.isEmpty

/-! ## The state machine -/

inductive FsmState where
  | idle | active | dataDegraded | contradicted | reversed | closed
deriving DecidableEq

inductive FsmEvent where
  | primaryEnded | duplicateIgnored | staleIgnored | dataDegraded | activated | confirmation
  | reversal | contradiction
deriving DecidableEq

inductive FsmAction where
  | reselectWatch | ignore | suspendDecision | startWatch | updateWatch | flipWatch | tightenWatch
deriving DecidableEq

structure Transition where
  signalId : String
  observedAt : String
  fromState : FsmState
  toState : FsmState
  eventType : FsmEvent
  action : FsmAction
deriving DecidableEq

structure Fsm where
  state : FsmState
  primarySide : String
  primaryTimeframe : String
  primarySignalId : String
  watermark : String
  transitions : List Transition
deriving DecidableEq

namespace Fsm

/-- The row becomes the primary one. -/
def follow (fsm : Fsm) (state : FsmState) (row : Row) : Fsm :=
  { fsm with
    state := state
    primarySide := row.side
    primaryTimeframe := row.timeframe
    primarySignalId := row.signalId }

/-- What an observation that is neither known nor stale decides. -/
def decision (fsm : Fsm) (row : Row) : Fsm × FsmEvent × FsmAction :=
  if isDegraded row then ({ fsm with state := .dataDegraded }, .dataDegraded, .suspendDecision)
  else if fsm.state = .idle then (fsm.follow .active row, .activated, .startWatch)
  else if row.side = fsm.primarySide then ({ fsm with state := .active }, .confirmation, .updateWatch)
  else if tfRank fsm.primaryTimeframe < tfRank row.timeframe then
    (fsm.follow .reversed row, .reversal, .flipWatch)
  else ({ fsm with state := .contradicted }, .contradiction, .tightenWatch)

def isStale (fsm : Fsm) (observedAt : String) : Prop := fsm.watermark ≠ "" ∧ observedAt ≤ fsm.watermark

instance instDecidableIsStale (fsm : Fsm) (observedAt : String) : Decidable (fsm.isStale observedAt) :=
  inferInstanceAs (Decidable (_ ∧ _))

/-- An observation that is recorded and changes nothing else. -/
def ignore (env : Env) (fsm : Fsm) (row : Row) (event : FsmEvent) : Fsm :=
  { fsm with
    transitions := fsm.transitions ++
      [⟨row.signalId, createdSortKey env row, fsm.state, fsm.state, event, .ignore⟩] }

/-- An observation that decides, with its time as the new watermark. -/
def accept (env : Env) (fsm : Fsm) (row : Row) : Fsm :=
  let (next, event, action) := fsm.decision row
  { next with
    watermark := createdSortKey env row
    transitions := fsm.transitions ++
      [⟨row.signalId, createdSortKey env row, fsm.state, next.state, event, action⟩] }

end Fsm

/-- The loop of `replay_symbol_fsm`: the machine and the ids seen in this call. -/
structure Loop where
  fsm : Fsm
  seen : List String

def observe (env : Env) (priorSeen : List String) (loop : Loop) (row : Row) : Loop :=
  if row.signalId ∈ priorSeen then loop
  else if row.signalId ∈ loop.seen then
    { loop with fsm := loop.fsm.ignore env row .duplicateIgnored }
  else if loop.fsm.isStale (createdSortKey env row) then
    { loop with fsm := loop.fsm.ignore env row .staleIgnored }
  else { fsm := loop.fsm.accept env row, seen := row.signalId :: loop.seen }

/-! ## Theses -/

inductive ThesisStatus where
  | active | closed
deriving DecidableEq

structure Thesis where
  thesisId : String
  symbol : String
  side : String
  primarySignalId : String
  primaryTimeframe : String
  primaryFamily : String
  primaryStatus : String
  primarySource : String
  primaryValidationTier : String
  activeSignals : ℕ
  createdAt : String
  stateHash : String
  updatedAt : String
  closedAt : String
  closeReason : String
  status : ThesisStatus
  fsmState : FsmState
  fsmWatermark : String
  fsmTransitions : List Transition


/-- The machine that a stored thesis restores. -/
def Thesis.fsm (thesis : Thesis) : Fsm where
  state := thesis.fsmState
  primarySide := thesis.side
  primaryTimeframe := thesis.primaryTimeframe
  primarySignalId := thesis.primarySignalId
  watermark := thesis.fsmWatermark
  transitions := thesis.fsmTransitions

def Fsm.start : Fsm := ⟨.idle, "", "", "", "", []⟩

def restored : Option Thesis → Fsm
  | none => .start
  | some thesis =>
      { thesis.fsm with state := if thesis.fsmState = .closed then .idle else thesis.fsmState }

/-- The machine once the primary signal is no longer among the observations. -/
def Fsm.reselect (fsm : Fsm) : Fsm :=
  { Fsm.start with
    transitions := fsm.transitions ++
      [⟨fsm.primarySignalId, fsm.watermark, fsm.state, .idle, .primaryEnded, .reselectWatch⟩] }

def observationOrder (env : Env) (row : Row) : String ×ₗ String :=
  toLex (createdSortKey env row, row.signalId)

def replaySymbolFsm (env : Env) (group : List Row) (previous : Option Thesis) : Fsm :=
  let prior := restored previous
  let priorSeen := (prior.transitions.map Transition.signalId).filter (· ≠ "")
  let ordered := sortOn (observationOrder env) group
  if prior.primarySignalId ≠ "" ∧ prior.primarySignalId ∉ group.map Row.signalId then
    (ordered.foldl (observe env []) ⟨prior.reselect, []⟩).fsm
  else (ordered.foldl (observe env priorSeen) ⟨prior, []⟩).fsm

def validationTier (row : Row) : String :=
  if row.liveReady then "validated_pfr"
  else if row.readyStrategyId ≠ "" then "validator_context_present"
  else "farm_calculated"

/-- `_leader_score`. -/
def leaderScore (env : Env) (row : Row) : ℕ ×ₗ ℕ ×ₗ ℕ ×ₗ String :=
  toLex (tfRank row.timeframe, toLex (if row.liveReady then 1 else 0,
    toLex ((if row.status = "opened_paper" then 1 else 0) + (if row.source = "pfr_farm" then 1 else 0),
      createdSortKey env row)))

/-- `_state_hash`. -/
def stateHash (env : Env) (symbol : String) (leader : Row) (group : List Row) : String :=
  "thesisstate_" ++
    env.stateDigest symbol leader.signalId ((sortOn Row.sourceSignalId group).map Row.signalState)

def Row.instrument (row : Row) : String := if row.okxInstId ≠ "" then row.okxInstId else row.symbol

/-- `min(_created_sort_key(row) for row in group)`. -/
def firstCreated (env : Env) (group : List Row) : String :=
  ((group.map (createdSortKey env)).argmin id).getD ""

def thesisFromLeader (env : Env) (now : String) (leader : Row) (group : List Row)
    (previous : Option Thesis) : Thesis :=
  let symbol := leader.instrument
  let storedAt := (previous.map Thesis.createdAt).getD ""
  let startedAt := if storedAt ≠ "" then storedAt else firstCreated env group
  let storedId := (previous.map Thesis.thesisId).getD ""
  let fsm := replaySymbolFsm env group previous
  let fsmLeader := (group.find? fun row => row.signalId = fsm.primarySignalId).getD leader
  { thesisId := if storedId ≠ "" then storedId else "thesis_" ++ env.thesisDigest symbol startedAt
    symbol := symbol
    side := fsmLeader.side
    primarySignalId := if fsm.primarySignalId ≠ "" then fsm.primarySignalId else leader.signalId
    primaryTimeframe := fsmLeader.timeframe
    primaryFamily := fsmLeader.setupFamily
    primaryStatus := fsmLeader.status
    primarySource := fsmLeader.source
    primaryValidationTier := validationTier fsmLeader
    activeSignals := group.length
    createdAt := startedAt
    stateHash := stateHash env symbol fsmLeader group
    updatedAt := now
    closedAt := ""
    closeReason := ""
    status := .active
    fsmState := fsm.state
    fsmWatermark := fsm.watermark
    fsmTransitions := fsm.transitions }

/-- The row that the supervisor takes as the leader: the stored primary one, else the best score. -/
def chooseLeader (env : Env) (group : List Row) (previous : Option Thesis) : Option Row :=
  let previousPrimary := (previous.map Thesis.primarySignalId).getD ""
  (group.find? fun row => row.signalId = previousPrimary).orElse fun _ =>
    group.argmax (leaderScore env)

end ResearchLab.TradeThesis
