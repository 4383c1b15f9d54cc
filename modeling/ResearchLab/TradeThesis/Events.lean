import Mathlib
import ResearchLab.Foundation.Sorting
import ResearchLab.TradeThesis.Fsm

/-!
# Events of the supervisor

`build_trade_thesis_supervisor` and `write_trade_thesis_supervisor`: the theses of the active symbols,
the events of a call and what the event log takes of them.
-/
namespace ResearchLab.TradeThesis
open Foundation

inductive EventType where
  | scenarioOpened | scenarioUpdated | scenarioClosed
  | primaryThesis | confirmation | lowerTfConfirmation | countertrendBounce | invalidationWarning
  | higherTfConflict
deriving DecidableEq

def EventType.text : EventType → String
  | .scenarioOpened => "scenario_opened"
  | .scenarioUpdated => "scenario_updated"
  | .scenarioClosed => "scenario_closed"
  | .primaryThesis => "primary_thesis"
  | .confirmation => "confirmation"
  | .lowerTfConfirmation => "lower_tf_confirmation"
  | .countertrendBounce => "countertrend_bounce"
  | .invalidationWarning => "invalidation_warning"
  | .higherTfConflict => "higher_tf_conflict"

/-- The events that say that a scenario has changed. -/
def EventType.isScenario (type : EventType) : Bool :=
  decide (type ∈ [.scenarioOpened, .scenarioUpdated, .scenarioClosed])

structure ThesisEvent where
  eventId : String
  thesisId : String
  symbol : String
  sourceSignalId : String
  signalTimeframe : String
  signalSide : String
  signalFamily : String
  signalStatus : String
  eventType : EventType
  supervisorAction : String
  reasonCodes : List String
  eventTs : String
  stateHash : String
  terminalResult : String
  terminalNetPct : Option ℚ
deriving DecidableEq

/-- The files of the supervisor: the theses of the last summary, and the event log. -/
structure Files where
  items : List Thesis
  eventLog : List ThesisEvent

/-- The characters that end a line for `str.splitlines` and that `json.dumps` leaves as they are
without `ensure_ascii`. -/
def lineBoundaries : List Char := ['\u0085', '\u2028', '\u2029']

def onOneLine (text : String) : Bool := text.toList.all (· ∉ lineBoundaries)

/-- The texts of an event, beside its ids and its action, which are ASCII. -/
def ThesisEvent.texts (event : ThesisEvent) : List String :=
  [event.symbol, event.sourceSignalId, event.signalTimeframe, event.signalSide, event.signalFamily,
    event.signalStatus, event.eventTs, event.terminalResult] ++ event.reasonCodes

/-- The event stands on one line of the log. -/
def ThesisEvent.onOneLine (event : ThesisEvent) : Bool := event.texts.all TradeThesis.onOneLine

/-- `_read_jsonl`: an event that its own text breaks into several lines is none of them, and no piece
of it names an event. -/
def readEvents (log : List ThesisEvent) : List ThesisEvent := log.filter ThesisEvent.onOneLine

/-- One call: the ledger it reads, and the clock at the thesis of each symbol. -/
structure Call where
  ledger : List Row
  now : String → String

/-! ## Symbols and theses -/

def activeStatuses : List String := ["armed", "opened_paper"]

def activeRows (ledger : List Row) : List Row :=
  ledger.filter fun row => row.status ∈ activeStatuses

/-- The group of a symbol. -/
def groupOf (ledger : List Row) (symbol : String) : List Row :=
  (activeRows ledger).filter fun row => row.instrument = symbol

/-- The keys of `by_symbol` in order. -/
def activeSymbols (ledger : List Row) : List String :=
  sortOn id (((activeRows ledger).map Row.instrument).filter (· ≠ "")).dedup

/-- `previous_active.get(symbol)`: the last active item of the symbol. -/
def previousActive (files : Files) (symbol : String) : Option Thesis :=
  if symbol = "" then none
  else (files.items.filter fun item => item.status = .active ∧ item.symbol = symbol).getLast?

/-- The keys of `previous_active` in order. -/
def previousSymbols (files : Files) : List String :=
  sortOn id (((files.items.filter fun item => item.status = .active ∧ item.symbol ≠ "").map
    Thesis.symbol)).dedup

section
variable (env : Env) (files : Files) (call : Call)

/-- The thesis of an active symbol. -/
def activeThesis (symbol : String) : Option Thesis :=
  let previous := previousActive files symbol
  let group := groupOf call.ledger symbol
  (chooseLeader env group previous).map fun leader =>
    thesisFromLeader env (call.now symbol) leader group previous

/-! ## Events -/

def eventId (payload : EventPayload) : String := "thesis_event_" ++ env.eventDigest payload

/-- `_classify_signal`. -/
def classifySignal (thesis : Thesis) (row : Row) : EventType × String × List String :=
  let reasons := ["thesis_side:" ++ thesis.side, "signal_side:" ++ row.side,
    "thesis_tf:" ++ thesis.primaryTimeframe, "signal_tf:" ++ row.timeframe,
    "validation:" ++ validationTier row]
  let signalRank := tfRank row.timeframe
  let thesisRank := tfRank thesis.primaryTimeframe
  if row.signalId = thesis.primarySignalId then
    (.primaryThesis, "track_primary", reasons ++ ["primary_signal"])
  else if row.side = thesis.side then
    if thesisRank ≤ signalRank then
      (.confirmation, "hold_or_add_watch", reasons ++ ["same_side_equal_or_higher_tf"])
    else (.lowerTfConfirmation, "add_watch", reasons ++ ["same_side_lower_tf"])
  else if signalRank < thesisRank then
    (.countertrendBounce, "hold_primary_tighten_watch", reasons ++ ["opposite_lower_tf"])
  else if signalRank = thesisRank then
    (.invalidationWarning, "tighten_or_flip_watch", reasons ++ ["opposite_equal_tf"])
  else (.higherTfConflict, "flip_watch", reasons ++ ["opposite_higher_tf"])

/-- An event of the thesis as a whole. -/
def scenarioEvent (symbol : String) (thesis : Thesis) (payload : EventPayload) (type : EventType)
    (action : String) (reasons : List String) (ts : String) : ThesisEvent where
  eventId := eventId env payload
  thesisId := thesis.thesisId
  symbol := symbol
  sourceSignalId := thesis.primarySignalId
  signalTimeframe := thesis.primaryTimeframe
  signalSide := thesis.side
  signalFamily := thesis.primaryFamily
  signalStatus := thesis.primaryStatus
  eventType := type
  supervisorAction := action
  reasonCodes := reasons
  eventTs := ts
  stateHash := thesis.stateHash
  terminalResult := ""
  terminalNetPct := none

/-- The event of an opened or changed thesis. -/
def transitionEvent (symbol : String) (previous : Option Thesis) (thesis : Thesis) :
    Option ThesisEvent :=
  match previous with
  | none => some (scenarioEvent env symbol thesis (.opened thesis.thesisId) .scenarioOpened
      "start_watch" ["first_active_signal"] thesis.createdAt)
  | some old =>
      if old.stateHash ≠ thesis.stateHash then
        some (scenarioEvent env symbol thesis (.updated thesis.thesisId thesis.stateHash)
          .scenarioUpdated "update_watch"
          (["active_state_changed"] ++
            (if old.primarySignalId ≠ thesis.primarySignalId then ["primary_signal_changed"] else []))
          thesis.updatedAt)
      else none

/-- The event of an observation. -/
def signalEvent (symbol : String) (thesis : Thesis) (row : Row) : ThesisEvent :=
  let (type, action, reasons) := classifySignal thesis row
  { eventId := eventId env (.signal thesis.thesisId row.signalId type.text action)
    thesisId := thesis.thesisId
    symbol := symbol
    sourceSignalId := row.signalId
    signalTimeframe := row.timeframe
    signalSide := row.side
    signalFamily := row.setupFamily
    signalStatus := row.status
    eventType := type
    supervisorAction := action
    reasonCodes := reasons
    eventTs := createdSortKey env row
    stateHash := thesis.stateHash
    terminalResult := ""
    terminalNetPct := none }

/-- The events of an active symbol. -/
def symbolEvents (symbol : String) : List ThesisEvent :=
  match activeThesis env files call symbol with
  | none => []
  | some thesis =>
      (transitionEvent env symbol (previousActive files symbol) thesis).toList ++
        (sortOn (fun row => toLex (createdSortKey env row, row.sourceSignalId) : Row → String ×ₗ String)
          (groupOf call.ledger symbol)).map (signalEvent env symbol thesis)

/-- The row of the ledger that a signal id names: the last one. -/
def rowBySignal (ledger : List Row) (signalId : String) : Option Row :=
  (ledger.filter fun row => row.signalId = signalId).getLast?

/-- `outcome.get("result") or primary.get("status") or "observation_ended"`. -/
def closeResult (primary : Option Row) : String :=
  match primary with
  | none => "observation_ended"
  | some row => if row.result ≠ "" then row.result
      else if row.status ≠ "" then row.status
      else "observation_ended"

def closedThesis (symbol : String) (previous : Thesis) : Thesis :=
  let primary := rowBySignal call.ledger previous.primarySignalId
  let status := (primary.map Row.status).getD ""
  { previous with
    symbol := symbol
    primaryStatus := if status ≠ "" then status else "closed"
    primaryValidationTier :=
      if previous.primaryValidationTier ≠ "" then previous.primaryValidationTier else "farm_calculated"
    activeSignals := 0
    updatedAt := call.now symbol
    closedAt := call.now symbol
    closeReason := closeResult primary
    status := .closed
    fsmState := .closed }

def closedEvent (symbol : String) (previous : Thesis) : ThesisEvent :=
  let primary := rowBySignal call.ledger previous.primarySignalId
  let closed := closedThesis call symbol previous
  let result := closeResult primary
  { scenarioEvent env symbol closed (.closed closed.thesisId result) .scenarioClosed "stop_watch"
      ["no_active_signals", "terminal:" ++ result] (call.now symbol) with
    terminalResult := result
    terminalNetPct := primary.bind Row.netPct }

/-- The symbols whose thesis ends in this call. -/
def endedSymbols : List String :=
  (previousSymbols files).filter fun symbol => symbol ∉ activeSymbols call.ledger

/-- All the events of a call, in order. -/
def newEvents : List ThesisEvent :=
  (activeSymbols call.ledger).flatMap (symbolEvents env files call) ++
    (endedSymbols files call).flatMap fun symbol =>
      ((previousActive files symbol).map (closedEvent env call symbol)).toList

def newTheses : List Thesis :=
  (activeSymbols call.ledger).filterMap (activeThesis env files call) ++
    (endedSymbols files call).filterMap fun symbol =>
      (previousActive files symbol).map (closedThesis call symbol)

/-! ## Writing -/

def tailLimit : ℕ := 500

/-- `existing_event_ids`. -/
def knownIds : List String := (readEvents files.eventLog).map ThesisEvent.eventId

/-- The events of the call that the log does not hold. -/
def appendedEvents : List ThesisEvent :=
  (newEvents env files call).filter fun event => event.eventId ∉ knownIds files

/-- `event_rows[-500:]`. -/
def eventItems : List ThesisEvent :=
  let rows := readEvents files.eventLog ++ appendedEvents env files call
  rows.drop (rows.length - tailLimit)

/-- The items whose id is neither known nor written before. -/
def unwritten : List String → List ThesisEvent → List ThesisEvent
  | _, [] => []
  | known, event :: events =>
      if event.eventId ≠ "" ∧ event.eventId ∉ known then
        event :: unwritten (event.eventId :: known) events
      else unwritten known events

/-- The lines that a call appends to the event log. -/
def writtenEvents : List ThesisEvent :=
  unwritten (knownIds files) (eventItems env files call)

/-- `write_trade_thesis_supervisor`. -/
def writeTradeThesisSupervisor : Files where
  items := newTheses env files call
  eventLog := files.eventLog ++ writtenEvents env files call

end

/-- The files after a sequence of calls. -/
def runCalls (env : Env) (calls : List Call) : Files :=
  calls.foldl (writeTradeThesisSupervisor env) ⟨[], []⟩

end ResearchLab.TradeThesis
