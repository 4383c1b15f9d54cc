import Mathlib
import ResearchLab.PaperLane.Observe

/-!
# The observation phase of a cycle

What a cycle does to the signals that are already stored: it asks for the market data of each
active one, advances it over usable candles, ages it out, and records an incident where the data
cannot be used. The limits of the cycle may end the phase before the last signal.
-/
namespace ResearchLab.PaperLane
open Foundation Foundation.IntOrder
open Simulation (Candle)

/-! ## Market data -/

inductive DataStatus
  | usable | providerError | dataGap | genuineNoMarketData
  deriving DecidableEq

structure MarketDataObservation where
  rows : List Candle
  status : DataStatus
  reason : String

def MarketDataObservation.usable (o : MarketDataObservation) : Bool := decide (o.status = .usable)

/-- `classify_market_data_rows`; the timestamps are integers by type. -/
def classifyMarketDataRows (rows : List Candle) (timeframeMs : ℤ) : MarketDataObservation :=
  let stamps := rows.map Candle.ts
  if rows = [] then ⟨[], .genuineNoMarketData, "provider_returned_no_rows"⟩
  else if stamps ≠ sortOn id stamps ∨ ¬ stamps.Nodup then
    ⟨rows, .dataGap, "non_monotonic_candle_timestamps"⟩
  else if (stamps.zip stamps.tail).any fun p => decide (p.2 - p.1 ≠ max 1 timeframeMs) then
    ⟨rows, .dataGap, "non_contiguous_candle_window"⟩
  else ⟨rows, .usable, "contiguous_market_data"⟩

def barsMs (timeframe : String) : ℤ :=
  (List.lookup timeframe
    [("15m", 900000), ("1h", 3600000), ("4h", 14400000), ("1d", 86400000)]).getD 900000

def fetchWindowBars : ℤ := 220

/-- `provider.fetch_ohlcv(symbol, timeframe, start, end)` at each request of a cycle; an exception
is the name of its type. -/
abbrev Provider := ℕ → String → String → ℤ → ℤ → Except String (List Candle)

/-- `_fetch`. -/
def fetchMarketData (provider : Provider) (request : ℕ) (symbol timeframe : String) (nowMs : ℤ) :
    MarketDataObservation :=
  match provider request symbol timeframe (nowMs - fetchWindowBars * barsMs timeframe) nowMs with
  | .error exception => ⟨[], .providerError, "provider:" ++ exception⟩
  | .ok rows => classifyMarketDataRows rows (barsMs timeframe)

/-! ## A stored signal -/

/-- The keys of the outcome that record missing market data. -/
structure MarketData where
  status : Option DataStatus := none
  reason : Option String := none
  incidentId : Option String := none
  incidentSequence : Option ℤ := none
  incidentStartedAt : Option ℚ := none
  lastCheckedAt : Option ℚ := none
  failureCount : Option ℤ := none
  recoveredAt : Option ℚ := none
  lastIncidentId : Option String := none

/-- What `age_out` wrote over the result of the lane. -/
inductive AgedOut
  | stalePastExpiry | noDataRepeatedOpened | noDataRepeated
  deriving DecidableEq

/-- A signal of the store, with the keys of its outcome that the lane itself does not read. -/
structure Watch where
  signalId : String
  dedupKey : String
  lane : PaperActionSignal
  marketData : MarketData := {}
  noDataCount : Option ℤ := none
  agedOut : Option AgedOut := none

def activeStatuses : List SignalStatus := [.candidate, .armed, .openedPaper]

def terminalStatuses : List SignalStatus := [.closedPaper, .expired, .reviewed, .invalidated]

namespace Watch

variable (w : Watch)

def isTerminal : Bool := decide (w.lane.status ∈ terminalStatuses)

/-- The statuses that the observation looks at. -/
def isObserved : Bool := decide (w.lane.status = .armed ∨ w.lane.status = .openedPaper)

def withStatus (status : SignalStatus) : Watch := { w with lane := { w.lane with status := status } }

/-- `sig.expires_at and now > sig.expires_at`. -/
def pastExpiry (now : ℚ) : Bool := decide (w.lane.expiresAt ≠ 0 ∧ w.lane.expiresAt < now)

/-- `age_out`; whether it changed the signal shows in its status. -/
def ageOut (now : ℚ) (maxNoData : ℤ) : Watch :=
  if w.isObserved = false then w
  else if w.lane.status = .armed ∧ w.pastExpiry now = true then
    { w.withStatus .expired with agedOut := some .stalePastExpiry }
  else if maxNoData ≤ w.noDataCount.getD 0 then
    if w.lane.status = .openedPaper then
      { w.withStatus .invalidated with agedOut := some .noDataRepeatedOpened }
    else { w.withStatus .expired with agedOut := some .noDataRepeated }
  else w

/-- `review`, as far as the status goes. -/
def review : Watch :=
  if w.lane.status = .closedPaper ∨ w.lane.status = .expired then w.withStatus .reviewed else w

end Watch

/-- The default of `age_out`. -/
def maxNoData : ℤ := 4

section
variable (incidentId : String → DataStatus → ℤ → String)

/-- `_record_data_unavailable`. -/
def recordDataUnavailable (observation : MarketDataObservation) (now : ℚ) (w : Watch) : Watch :=
  let previous := w.marketData
  let same := decide (previous.status = some observation.status ∧
    previous.incidentId.getD "" ≠ "")
  let sequence :=
    if same then orElse previous.incidentSequence 1 else previous.incidentSequence.getD 0 + 1
  { w with marketData := { previous with
      status := some observation.status
      reason := some observation.reason
      incidentId :=
        if same then previous.incidentId
        else some (incidentId w.signalId observation.status sequence)
      incidentSequence := some sequence
      incidentStartedAt := some (if same then orElse previous.incidentStartedAt now else now)
      lastCheckedAt := some now
      failureCount := some (previous.failureCount.getD 0 + 1) } }

/-- `_record_data_recovery`. -/
def recordDataRecovery (now : ℚ) (w : Watch) : Watch :=
  let previous := w.marketData
  if previous.incidentId.getD "" = "" ∨ previous.status = some .usable then w
  else
    { w with marketData := { previous with
        status := some .usable
        recoveredAt := some now
        lastIncidentId := previous.incidentId
        incidentId := none } }

/-- What a cycle does to a signal once its data is there. -/
def visit (observation : MarketDataObservation) (now : ℚ) (w : Watch) : Except String Watch :=
  if observation.usable = false then .ok (recordDataUnavailable incidentId observation now w)
  else do
    let recovered := recordDataRecovery now w
    let lane ← observe recovered.lane observation.rows
    let observed := { recovered with lane := lane }
    let aged := if observed.isTerminal then observed else observed.ageOut now maxNoData
    return aged.review

end

/-! ## A cycle -/

/-- A call of `run_cycle` with `apply=True`, as far as the stored signals go. -/
structure CycleInput where
  now : ℚ
  provider : Provider
  /-- `yield_requested()` at each poll of the phase. -/
  stop : ℕ → Bool
  maxObserve : Option ℤ
  maxNetworkFetches : Option ℤ
  /-- The signals whose validated setup lost its authority. -/
  stalePfrIds : List String
  /-- The keys of the validated setups that the cycle generates. -/
  pfrNewKeys : List String
  newSignals : List Watch

def invalidateStale (inp : CycleInput) (w : Watch) : Watch :=
  if w.signalId ∈ inp.stalePfrIds ∧ w.lane.status ∈ activeStatuses ∧ w.lane.source = .pfrFarm then
    w.withStatus .invalidated
  else w

/-- A broad watch makes room for a validated setup of the same identity. -/
def isSuperseded (inp : CycleInput) (w : Watch) : Bool :=
  decide (w.lane.status ∈ activeStatuses ∧ w.lane.source ≠ .pfrFarm ∧ w.dedupKey ∈ inp.pfrNewKeys)

def supersede (inp : CycleInput) (w : Watch) : Watch :=
  if isSuperseded inp w then w.withStatus .invalidated else w

/-- The counters of the phase. -/
structure ScanState where
  polls : ℕ := 0
  activeSeen : ℕ := 0
  networkFetches : ℕ := 0

/-- A stored signal after the phase, with the market data where the phase reached it. -/
abbrev Reached := Watch × Option MarketDataObservation

def untouched (ws : List Watch) : List Reached := ws.map (·, none)

variable (incidentId : String → DataStatus → ℤ → String)

/-- The market data that the phase gets for a signal. -/
def observationOf (inp : CycleInput) (request : ℕ) (w : Watch) : MarketDataObservation :=
  fetchMarketData inp.provider request w.lane.symbol w.lane.timeframe ⌊inp.now * 1000⌋

/-- The observation phase; the flag says that an exception ended the cycle. -/
def observePhase (inp : CycleInput) : ScanState → List Watch → List Reached × Bool
  | _, [] => ([], false)
  | k, w :: ws =>
      if inp.stop k.polls then (untouched (w :: ws), false)
      else if w.isObserved = false then
        let rest := observePhase inp { k with polls := k.polls + 1 } ws
        ((w, none) :: rest.1, rest.2)
      else if inp.maxObserve.any fun limit : ℤ => decide (limit ≤ (k.activeSeen : ℤ)) then
        (untouched (w :: ws), false)
      else if inp.maxNetworkFetches.any fun limit : ℤ =>
          decide (max 0 limit ≤ (k.networkFetches : ℤ)) then
        (untouched (w :: ws), false)
      else
        let observation := observationOf inp k.networkFetches w
        match visit incidentId observation inp.now w with
        | .error _ => (untouched (w :: ws), true)
        | .ok w' =>
            let rest := observePhase inp ⟨k.polls + 1, k.activeSeen + 1, k.networkFetches + 1⟩ ws
            ((w', some observation) :: rest.1, rest.2)

/-- The stored signals after a cycle, in their order, with the new ones behind. -/
def runCycle (inp : CycleInput) (store : List Watch) : List Reached :=
  let phase := observePhase incidentId inp {} (store.map (invalidateStale inp))
  if phase.2 then phase.1
  else phase.1.map (fun r => (supersede inp r.1, r.2)) ++ untouched inp.newSignals

/-- The store after the first cycles of a run. -/
def storeAt (cycles : ℕ → CycleInput) (initial : List Watch) : ℕ → List Watch
  | 0 => initial
  | n + 1 => (runCycle incidentId (cycles n) (storeAt cycles initial n)).map Prod.fst

end ResearchLab.PaperLane
