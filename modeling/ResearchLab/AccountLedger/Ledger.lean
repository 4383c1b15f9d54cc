import Mathlib.Data.Prod.Lex
import Mathlib.Data.Rat.Floor
import ResearchLab.Foundation.Checks
import ResearchLab.Foundation.Rounding
import ResearchLab.Foundation.Sorting
import ResearchLab.Foundation.Table

/-!
# The paper account ledger

`build_paper_account_ledger` reconciles an append-only log of account events with the trades it is
given: one primary thesis for each scenario is funded when the account, replayed from the whole
log, has margin for it. Money is exact rational.
-/
namespace ResearchLab.AccountLedger
open Foundation Foundation.IntOrder

/-- `PaperMoneyModel`. -/
structure MoneyModel where
  depositUsdt : ℚ := 700
  positionMarginUsdt : ℚ := 35
  leverage : ℚ := 3
  minPositionMarginUsdt : ℚ := 30
  maxPositionMarginUsdt : ℚ := 40
  maxLeverage : ℚ := 5

/-- The checks of `PaperMoneyModel.__post_init__`. -/
def MoneyModel.Checked (m : MoneyModel) : Prop :=
  0 < m.depositUsdt ∧
    (m.minPositionMarginUsdt ≤ m.positionMarginUsdt ∧
      m.positionMarginUsdt ≤ m.maxPositionMarginUsdt) ∧
    0 < m.leverage ∧ m.leverage ≤ m.maxLeverage

def MoneyModel.notionalUsdt (m : MoneyModel) : ℚ := roundTo 6 (m.positionMarginUsdt * m.leverage)

/-! ## Trades -/

structure TradeOutcome where
  openedAtBarTs : Option ℤ := none
  lastObservedBarTs : Option ℤ := none
  netPct : Option ℚ := none
  feesBpsRoundTrip : Option ℚ := none
  slippageBpsRoundTrip : Option ℚ := none

/-- The fields of a main-paper trade that the ledger reads; an absent text is empty. -/
structure Trade where
  paperTradeId : String
  sourceSignalId : String := ""
  scenarioId : String := ""
  validationTier : String := ""
  okxInstId : String := ""
  timeframe : String := ""
  side : String := ""
  boundaryTs : Option ℤ := none
  signalStatus : String := ""
  status : String := ""
  adaptivePolicyConfidence : Option ℚ := none
  outcome : TradeOutcome := {}

inductive EventKind
  | positionOpened | positionClosed | allocationRejected | counterfactualExcluded
  deriving DecidableEq

/-- Text functions and digests: `strip`, and `stable_id` of a scenario and of an event. -/
structure Ids where
  strip : String → String
  scenario : (instrument timeframe side : String) → (boundaryTs : ℤ) → String
  event : EventKind → (paperTradeId scenarioId : String) → String

section
variable (ids : Ids)

/-- `_scenario_id`. -/
def scenarioOf (trade : Trade) : String :=
  let explicit := ids.strip trade.scenarioId
  if explicit = "" then
    ids.scenario trade.okxInstId trade.timeframe trade.side (trade.boundaryTs.getD 0)
  else explicit

/-- `_opened_ts`. -/
def openedTs (trade : Trade) : ℤ := orElse trade.outcome.openedAtBarTs (trade.boundaryTs.getD 0)

/-- `_closed_ts`. -/
def closedTs (trade : Trade) : ℤ := orElse trade.outcome.lastObservedBarTs (openedTs trade)

def hasOpened (trade : Trade) : Bool :=
  trade.outcome.openedAtBarTs.getD 0 ≠ 0 || trade.signalStatus = "opened_paper" ||
    trade.outcome.netPct.isSome

def terminalSignalStatuses : List String := ["closed_paper", "expired", "reviewed", "invalidated"]

def isTerminal (trade : Trade) : Bool :=
  trade.signalStatus ∈ terminalSignalStatuses || "closed_".toList.isPrefixOf trade.status.toList ||
    trade.outcome.netPct.isSome

/-- `_priority`, compared as a tuple. -/
def priority (trade : Trade) : ℕ ×ₗ ℚ ×ₗ ℤ ×ₗ String :=
  toLex (if trade.validationTier = "validated_pfr" then 0 else 1,
    toLex (-trade.adaptivePolicyConfidence.getD 0,
      toLex (trade.boundaryTs.getD 0, trade.paperTradeId)))

/-! ## Events -/

structure Event where
  eventId : String
  kind : EventKind
  eventTs : ℤ
  paperTradeId : String
  sourceSignalId : String
  scenarioId : String
  validationTier : String
  positionMarginUsdt : ℚ
  leverage : ℚ
  notionalUsdt : ℚ
  netPct : Option ℚ
  pnlUsdt : Option ℚ
  feesUsdt : ℚ
  slippageUsdt : ℚ
  reason : String
  deriving DecidableEq

/-- `_event`. -/
def eventOf (model : MoneyModel) (kind : EventKind) (trade : Trade) (eventTs : ℤ)
    (reason : String) : Event where
  eventId := ids.event kind trade.paperTradeId (scenarioOf ids trade)
  kind
  eventTs
  paperTradeId := trade.paperTradeId
  sourceSignalId := trade.sourceSignalId
  scenarioId := scenarioOf ids trade
  validationTier := trade.validationTier
  positionMarginUsdt := model.positionMarginUsdt
  leverage := model.leverage
  notionalUsdt := model.notionalUsdt
  netPct := trade.outcome.netPct
  pnlUsdt := trade.outcome.netPct.map fun netPct => roundTo 6 (model.notionalUsdt * netPct / 100)
  feesUsdt := roundTo 6 (model.notionalUsdt * trade.outcome.feesBpsRoundTrip.getD 0 / 10000)
  slippageUsdt := roundTo 6 (model.notionalUsdt * trade.outcome.slippageBpsRoundTrip.getD 0 / 10000)
  reason

end

/-! ## Replay -/

/-- The local variables of `_replay`. -/
structure Account where
  balance : ℚ
  reserved : List (String × ℚ) := []
  opened : List String := []
  closed : List String := []
  rejected : ℕ := 0
  counterfactual : ℕ := 0
  terminal : ℕ := 0
  wins : ℕ := 0
  losses : ℕ := 0
  totalFees : ℚ := 0
  totalSlippage : ℚ := 0

def Account.reservedSum (a : Account) : ℚ := (a.reserved.map Prod.snd).sum

def EventKind.replayOrder : EventKind → ℕ
  | .positionOpened => 0
  | .positionClosed => 1
  | .allocationRejected => 2
  | .counterfactualExcluded => 3

/-- The order in which events are replayed. -/
def replayKey (e : Event) : ℤ ×ₗ ℕ ×ₗ String :=
  toLex (e.eventTs, toLex (e.kind.replayOrder, e.eventId))

/-- The margin of an opening is reserved. -/
def Account.open (a : Account) (e : Event) : Account :=
  { a with
    reserved := a.reserved ++ [(e.paperTradeId, e.positionMarginUsdt)]
    opened := a.opened ++ [e.paperTradeId] }

/-- The margin of a closing is released and its outcome booked. -/
def Account.close (a : Account) (e : Event) : Account :=
  let pnl := e.pnlUsdt.getD 0
  { a with
    balance := a.balance + pnl
    reserved := a.reserved.filter fun r => r.1 ≠ e.paperTradeId
    closed := a.closed ++ [e.paperTradeId]
    terminal := a.terminal + 1
    wins := a.wins + if 0 < pnl then 1 else 0
    losses := a.losses + if pnl < 0 then 1 else 0
    totalFees := a.totalFees + e.feesUsdt
    totalSlippage := a.totalSlippage + e.slippageUsdt }

section
variable (a : Account) (e : Event)

@[simp] theorem Account.open_balance : (a.open e).balance = a.balance := rfl

@[simp] theorem Account.open_reserved :
    (a.open e).reserved = a.reserved ++ [(e.paperTradeId, e.positionMarginUsdt)] := rfl

@[simp] theorem Account.open_opened : (a.open e).opened = a.opened ++ [e.paperTradeId] := rfl

@[simp] theorem Account.open_closed : (a.open e).closed = a.closed := rfl

@[simp] theorem Account.close_balance : (a.close e).balance = a.balance + e.pnlUsdt.getD 0 := rfl

@[simp] theorem Account.close_reserved :
    (a.close e).reserved = a.reserved.filter fun r => r.1 ≠ e.paperTradeId := rfl

@[simp] theorem Account.close_opened : (a.close e).opened = a.opened := rfl

@[simp] theorem Account.close_closed : (a.close e).closed = a.closed ++ [e.paperTradeId] := rfl

end

def replayStep (a : Account) (e : Event) : Account :=
  match e.kind with
  | .positionOpened => if e.paperTradeId ∈ a.opened then a else a.open e
  | .positionClosed =>
      if e.paperTradeId ∈ a.opened ∧ e.paperTradeId ∉ a.closed then a.close e else a
  | .allocationRejected => { a with rejected := a.rejected + 1 }
  | .counterfactualExcluded => { a with counterfactual := a.counterfactual + 1 }

/-- Events in the order of their replay. -/
def replayFold (model : MoneyModel) (events : List Event) : Account :=
  events.foldl replayStep { balance := model.depositUsdt }

/-- The account as the snapshot shows it. -/
structure AccountSummary where
  balanceUsdt : ℚ
  equityUsdt : ℚ
  reservedMarginUsdt : ℚ
  availableMarginUsdt : ℚ
  activePositions : ℕ
  activeTradeIds : List String
  terminalTrades : ℕ
  wins : ℕ
  losses : ℕ
  totalPnlUsdt : ℚ
  totalFeesUsdt : ℚ
  totalSlippageUsdt : ℚ
  allocationRejections : ℕ
  counterfactualExclusions : ℕ
  deriving DecidableEq

def summarize (model : MoneyModel) (a : Account) : AccountSummary :=
  let reservedMargin := roundTo 6 a.reservedSum
  { balanceUsdt := roundTo 6 a.balance
    equityUsdt := roundTo 6 a.balance
    reservedMarginUsdt := reservedMargin
    availableMarginUsdt := roundTo 6 (a.balance - reservedMargin)
    activePositions := a.reserved.length
    activeTradeIds := sortOn id (a.reserved.map Prod.fst)
    terminalTrades := a.terminal
    wins := a.wins
    losses := a.losses
    totalPnlUsdt := roundTo 6 (a.balance - model.depositUsdt)
    totalFeesUsdt := roundTo 6 a.totalFees
    totalSlippageUsdt := roundTo 6 a.totalSlippage
    allocationRejections := a.rejected
    counterfactualExclusions := a.counterfactual }

/-- `_replay`. -/
def replay (model : MoneyModel) (events : List Event) : AccountSummary :=
  summarize model (replayFold model (sortOn replayKey events))

/-! ## Reconciliation -/

section
variable (ids : Ids) (model : MoneyModel)

/-- The trade of the last opening that a log has of a scenario. -/
def scenarioOwner (events : List Event) (scenarioId : String) : String :=
  ((events.filter fun e => e.kind = .positionOpened ∧ e.scenarioId = scenarioId).getLast?.map
    Event.paperTradeId).getD ""

/-- The opened trades of each scenario. -/
def grouped (trades : List Trade) : Table String (List Trade) :=
  (trades.filter fun trade => hasOpened trade).foldl
    (fun t trade => t.upsert (scenarioOf ids trade) [trade] (· ++ [trade])) .empty

/-- The trade that a scenario is funded for. -/
def ownerOf (events : List Event) (scenarioId : String) (candidates : List Trade) : String :=
  let owner := scenarioOwner events scenarioId
  if owner = "" then
    ((firstMin (fun a b => priority a < priority b) candidates).map Trade.paperTradeId).getD ""
  else owner

/-- The events of one candidate of a scenario. -/
def plannedOf (owner : String) (trade : Trade) : List Event :=
  if trade.paperTradeId ≠ owner then
    [eventOf ids model .counterfactualExcluded trade (openedTs trade) "non_primary_scenario_variant"]
  else
    eventOf ids model .positionOpened trade (openedTs trade) "primary_scenario_thesis" ::
      if isTerminal trade then
        [eventOf ids model .positionClosed trade (closedTs trade) "observed_terminal_outcome"]
      else []

def planned (events : List Event) (trades : List Trade) : List Event :=
  (grouped ids trades).entries.flatMap fun group =>
    group.2.flatMap (plannedOf ids model (ownerOf events group.1 group.2))

/-- The order in which candidates are reconciled. -/
def candidateKey (e : Event) : ℤ ×ₗ ℕ ×ₗ String :=
  toLex (e.eventTs, toLex (if e.kind = .positionOpened then 0 else 1, e.eventId))

/-- What becomes of an opening that finds too little margin. -/
def rejectionOf (candidate : Event) : Event :=
  { candidate with
    kind := .allocationRejected
    reason := "insufficient_available_margin"
    eventId := ids.event .allocationRejected candidate.paperTradeId candidate.scenarioId }

def addEvent (events : List Event) (e : Event) : List Event :=
  if e.eventId ∈ events.map Event.eventId then events else events ++ [e]

/-- The body of the loop over the candidates. -/
def reconcile (events : List Event) (candidate : Event) : List Event :=
  if candidate.eventId ∈ events.map Event.eventId then events
  else
    match candidate.kind with
    | .positionOpened =>
        if (replay model events).availableMarginUsdt < model.positionMarginUsdt then
          addEvent events (rejectionOf ids candidate)
        else addEvent events candidate
    | .positionClosed =>
        if candidate.paperTradeId ∉ (replay model events).activeTradeIds then events
        else addEvent events candidate
    | _ => addEvent events candidate

def candidates (events : List Event) (trades : List Trade) : List Event :=
  sortOn candidateKey (planned ids model events trades)

/-- `build_paper_account_ledger`: the log that it leaves, and the account of its snapshot. -/
def buildPaperAccountLedger (events : List Event) (trades : List Trade) :
    List Event × AccountSummary :=
  let log := (candidates ids model events trades).foldl (reconcile ids model) events
  (log, replay model log)

end
end ResearchLab.AccountLedger
