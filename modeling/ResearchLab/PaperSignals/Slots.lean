import Mathlib
import ResearchLab.PaperSignals.Contract

/-!
# New signals of a cycle

How one cycle of the paper lane fills its slots: first from the validated setups of the farm,
then from the movers of the market. Builders, gates, families and what the market data answer
are parameters.
-/
namespace ResearchLab.PaperSignals
open Foundation Json

/-- What the market data gave for a window, and how it was classified. -/
structure Observation (C : Type) where
  rows : List C
  status : String

def Observation.usable {C : Type} (o : Observation C) : Bool := decide (o.status = "usable")

/-- How a request for the candles of a validated setup ended. -/
inductive PfrFetch (C : Type)
  | rows (candles : List C)
  | timeout
  | error

/-- What a cycle meets: the answers to its polls and requests, in their order, and the code that
decides about candidates. -/
structure World (C : Type) where
  repr : Value → String
  /-- `yield_requested()`, at each poll. -/
  stop : ℕ → Bool
  fetch : ℕ → String → String → Observation C
  pfrFetch : ℕ → String → String → PfrFetch C
  fingerprint : List C → String
  pfrBuilders : String → Option (Dict → List C → Option PaperActionSignal × String)
  gateCandidate : Dict → String → List C → String
  watchOnlyReason : List C → Option String
  generate : Dict → String → String → List C → List (PaperActionSignal × String)
  /-- `lane.review(lane.observe(sig, candles))`. -/
  replayed : PaperActionSignal → List C → PaperActionSignal

structure CycleArgs where
  mode : String
  timeframes : List String
  maxNew : ℤ
  now : ℚ
  pfrDb : Bool
  pfrReservedNew : ℤ
  maxPfrScan : ℤ
  maxPfrFetches : Option ℤ
  maxLiveFetches : Option ℤ
  maxNetworkFetches : Option ℤ

def activeStatuses : List String := ["candidate", "armed", "opened_paper"]

def cycleTerminal : List String := ["closed_paper", "expired", "reviewed", "invalidated"]

def regenTtlSeconds : ℚ := 3600

variable {C : Type} (w : World C) (args : CycleArgs)

def World.text (row : Dict) (key : String) : String := textOr w.repr (field row key)

/-! ## Validated setups -/

/-- `_diverse_records`: the first record of each symbol, timeframe and family. -/
def diverseRecords (records : List Dict) : List Dict :=
  records.foldl (fun kept row =>
    if kept.any fun k => decide (w.text k "symbol" = w.text row "symbol" ∧
        w.text k "timeframe" = w.text row "timeframe" ∧ w.text k "family" = w.text row "family")
    then kept else kept ++ [row]) []

structure PfrState (C : Type) where
  counts : List String
  generated : List (PaperActionSignal × List C) := []
  pretriggers : List (PaperActionSignal × List C × String) := []
  activeDedup : List String
  activeSetupIds : List String
  scanned : ℕ := 0
  fetches : ℕ := 0
  polls : ℕ

namespace PfrState

variable (st : PfrState C)

def count (key : String) : PfrState C := { st with counts := st.counts ++ [key] }

def select (sig : PaperActionSignal) (candles : List C) (key setupId : String) : PfrState C :=
  { st with
    generated := st.generated ++ [(sig, candles)]
    activeDedup := key :: st.activeDedup
    activeSetupIds := setupId :: st.activeSetupIds }

end PfrState

/-- The candles of a record are there: same data, the builder's verdict, the selection. -/
def pfrCandidate (recent : List (String × String)) (row : Dict) (dedupKey setupId : String)
    (build : Dict → List C → Option PaperActionSignal × String) (candles : List C)
    (st : PfrState C) : PfrState C :=
  if candles.length < 20 then st.count "pfr_insufficient_bars"
  else if (dedupKey, w.fingerprint candles) ∈ recent then st.count "pfr_dedup_same_data"
  else
    match build row candles with
    | (none, reason) =>
        st.count ("pfr_rejected:" ++ String.ofList (reason.toList.take 50))
    | (some sig, reason) =>
        if reason = "ok_pretrigger" then
          { st with pretriggers := st.pretriggers ++ [(sig, candles, setupId)] }.count
            "pfr_pretrigger_candidate"
        else (st.count "pfr_generated").select sig candles dedupKey setupId

/-- One record; the flag says that the loop over the records ends. -/
def pfrRecord (maxPfr : ℕ) (recent : List (String × String)) (row : Dict) (st : PfrState C) :
    PfrState C × Bool :=
  let family := w.text row "family"
  let tf := w.text row "timeframe"
  let symbol := w.text row "symbol"
  let dedupKey := symbol ++ "|" ++ tf ++ "|" ++ family
  let setupId := w.text row "setup_id"
  if maxPfr ≤ st.generated.length then (st.count "pfr_cap_reached", false)
  else
    match w.pfrBuilders family with
    | none => (st.count ("pfr_no_builder:" ++ family), false)
    | some build =>
        if tf ∉ args.timeframes then (st.count "pfr_tf_filtered", false)
        else if dedupKey ∈ st.activeDedup then (st.count "pfr_dedup_active_key", false)
        else if setupId ≠ "" ∧ setupId ∈ st.activeSetupIds then
          (st.count "pfr_dedup_setup_id", false)
        else if args.maxPfrFetches.any fun limit : ℤ => decide (max 0 limit ≤ (st.fetches : ℤ)) then
          (st.count "pfr_fetch_limit_reached", true)
        else if w.stop st.polls then
          ({ st with polls := st.polls + 1 }.count "pfr_time_or_stop_limit_reached", true)
        else
          let fetched := { st with polls := st.polls + 1, fetches := st.fetches + 1 }
          match w.pfrFetch st.fetches symbol tf with
          | .timeout => (fetched.count "pfr_fetch_timeout", false)
          | .error => (fetched.count "pfr_candle_fetch_error", false)
          | .rows candles =>
              (pfrCandidate w recent row dedupKey setupId build candles fetched, false)

def pfrRecords (maxPfr : ℕ) (recent : List (String × String)) :
    List Dict → PfrState C → PfrState C
  | [], st => st
  | row :: rows, st =>
      let polled := { st with polls := st.polls + 1 }
      if w.stop st.polls then polled.count "pfr_time_or_stop_limit_reached"
      else if args.maxPfrScan ≤ st.scanned then
        pfrRecords maxPfr recent rows (polled.count "pfr_scan_limit_reached")
      else
        let step := pfrRecord w args maxPfr recent row { polled with scanned := st.scanned + 1 }
        if step.2 then step.1 else pfrRecords maxPfr recent rows step.1

/-- One signal before its trigger, after the exact ones. -/
def pfrPretrigger (maxPfr : ℕ) (st : PfrState C)
    (candidate : PaperActionSignal × List C × String) : PfrState C :=
  let sig := candidate.1
  let setupId := candidate.2.2
  if maxPfr ≤ st.generated.length then st.count "pfr_pretrigger_deferred_by_exact_cap"
  else if sig.dedupKey ∈ st.activeDedup then st.count "pfr_pretrigger_dedup_active_key"
  else if setupId ≠ "" ∧ setupId ∈ st.activeSetupIds then
    st.count "pfr_pretrigger_dedup_setup_id"
  else
    ((st.count "pfr_generated").count "pfr_generated_pretrigger").select sig candidate.2.1
      sig.dedupKey setupId

def generatePfrSignals (maxPfr : ℕ) (recent : List (String × String)) (records : List Dict)
    (st : PfrState C) : PfrState C :=
  let scanned := pfrRecords w args maxPfr recent (diverseRecords w records) st
  scanned.pretriggers.foldl (pfrPretrigger maxPfr) scanned

/-! ## Movers -/

structure LiveState (C : Type) where
  newSigs : List (PaperActionSignal × List C)
  byKeyActive : List String
  networkFetches : ℕ
  liveFetches : ℕ := 0
  polls : ℕ
  counts : List String

namespace LiveState

variable (s : LiveState C)

def count (key : String) : LiveState C := { s with counts := s.counts ++ [key] }

def poll : LiveState C := { s with polls := s.polls + 1 }

/-- A request after the poll. -/
def fetched : LiveState C :=
  { s.poll with networkFetches := s.networkFetches + 1, liveFetches := s.liveFetches + 1 }

end LiveState

/-- What the loaded signals and the memories say about candidates. -/
structure History where
  existing : List PaperActionSignal
  learnedBad : List (String × String × String)
  knownBad : List (String × String × String × String)

namespace History

variable (h : History)

def recentTerminal : List (String × String) :=
  (h.existing.filter fun s => s.status ∈ cycleTerminal).map fun s =>
    (s.dedupKey, s.dataFingerprint)

/-- `last_seen.get(key, 0)`: the last of the loaded signals with the key. -/
def lastSeen (key : String) : ℚ :=
  ((h.existing.reverse.find? fun s => s.dedupKey = key).map (·.createdAt)).getD 0

def lastSeenCell (sig : PaperActionSignal) : ℚ :=
  (h.existing.filter fun s => s.symbol = sig.symbol ∧ s.timeframe = sig.timeframe ∧
    s.setupFamily = sig.setupFamily).foldl (fun seen s => max seen s.createdAt) 0

def isKnownBadSetup (symbol tf family paramsHash : String) : Bool :=
  decide (symbol ≠ "" ∧ tf ≠ "" ∧ family ≠ "" ∧ (symbol, tf, family, paramsHash) ∈ h.knownBad)

end History

/-- The most signals that the loops may reach, and how many requests they may make; `none` for no
bound. -/
structure Limits where
  newSigs : Option ℕ
  liveFetches : Option ℕ
  networkFetches : Option ℕ
  stop : ℕ → Bool

def Limits.full (limits : Limits) (s : LiveState C) : Bool :=
  limits.newSigs.any fun cap => decide (cap ≤ s.newSigs.length)

section
variable (h : History) (limits : Limits)

/-- What keeps a candidate of a cell out, if anything does. -/
def rejection (symbol tf : String) (byKeyActive : List String) (sig : PaperActionSignal) :
    Option String :=
  if sig.dedupKey ∈ byKeyActive then some "dedup_active"
  else if (symbol, tf, sig.setupFamily) ∈ h.learnedBad then some "learned_known_bad"
  else if h.isKnownBadSetup symbol tf sig.setupFamily
      (w.text sig.validatorContext "params_hash") then some "setup_outcome_known_bad"
  else if args.now - h.lastSeen sig.dedupKey < regenTtlSeconds then some "regen_ttl"
  else if (sig.dedupKey, sig.dataFingerprint) ∈ h.recentTerminal then some "dedup_same_data"
  else if pyStr w.repr ((field sig.validatorContext "geometry_profile_id").orElse (.str "base")) ≠
      "base" ∧ args.now - h.lastSeenCell sig < regenTtlSeconds then
    some "geometry_profile_cell_ttl"
  else none

def liveSignal (symbol tf : String) (candles : List C) (s : LiveState C)
    (candidate : PaperActionSignal × String) : LiveState C :=
  let sig := candidate.1
  match rejection w args h symbol tf s.byKeyActive sig with
  | some reason => s.count reason
  | none =>
      let profileId := pyStr w.repr
        ((field sig.validatorContext "geometry_profile_id").orElse (.str "base"))
      let counted := (s.count ("family:" ++ candidate.2)).count ("geometry_profile:" ++ profileId)
      let stored := if args.mode = "replay" then w.replayed sig candles else sig
      { counted with
        newSigs := s.newSigs ++ [(stored, candles)]
        byKeyActive := stored.dedupKey :: s.byKeyActive }

def liveSignals (symbol tf : String) (candles : List C) :
    List (PaperActionSignal × String) → LiveState C → LiveState C
  | [], s => s
  | candidate :: rest, s =>
      if limits.full s then s
      else liveSignals symbol tf candles rest (liveSignal w args h symbol tf candles s candidate)

def horizonBars (tf : String) : ℕ :=
  (List.lookup tf [("1m", 5), ("5m", 24), ("15m", 28), ("1h", 30), ("4h", 9), ("1d", 5)]).getD 12

def armWindowBars : ℕ := 6

/-- The candles that a candidate is decided on; a replay leaves its horizon out. -/
def decisionCandles (tf : String) (candles : List C) : List C :=
  let back := horizonBars tf + armWindowBars + 1
  if args.mode = "replay" ∧ back + 40 < candles.length then
    candles.take (candles.length - back)
  else candles

/-- A mover on one timeframe, once its candles were asked for. -/
def liveFrame (mover : Dict) (symbol tf : String) (observation : Observation C)
    (s : LiveState C) : LiveState C :=
  if observation.usable then
    let candles := observation.rows
    let gate := w.gateCandidate mover tf candles
    let gated := s.count gate
    if gate ≠ "ok" then gated
    else
      let decide := decisionCandles args tf candles
      match w.watchOnlyReason decide with
      | some reason => gated.count reason
      | none =>
          liveSignals w args h limits symbol tf candles (w.generate mover symbol tf decide) gated
  else s.count observation.status

/-- The timeframes of a mover; the flag is `live_fetch_limit_reached`. -/
def liveFrames (mover : Dict) (symbol : String) :
    List String → LiveState C → LiveState C × Bool
  | [], s => (s, false)
  | tf :: tfs, s =>
      if limits.stop s.polls then (s.poll.count "wall_or_stop_limit_reached", true)
      else if limits.full s then (s.poll, false)
      else if limits.liveFetches.any fun n => decide (n ≤ s.liveFetches) then
        (s.poll.count "live_fetch_limit_reached", true)
      else if limits.networkFetches.any fun n => decide (n ≤ s.networkFetches) then
        (s.poll.count "network_fetch_limit_reached", true)
      else
        liveFrames mover symbol tfs (liveFrame w args h limits mover symbol tf
          (w.fetch s.networkFetches symbol tf) s.fetched)

/-- `str(mv.get("symbol") or inst.replace("-", "_"))`. -/
def moverSymbol (mover : Dict) : String :=
  pyStr w.repr ((field mover "symbol").orElse
    (.str (String.ofList ((w.text mover "inst_id").toList.map fun c => if c = '-' then '_' else c))))

def liveMovers : List Dict → Bool → LiveState C → LiveState C
  | [], _, s => s
  | mover :: movers, limitReached, s =>
      if limits.stop s.polls then s.poll.count "wall_or_stop_limit_reached"
      else if limits.full s || limitReached then s.poll
      else
        let step := liveFrames w args h limits mover (moverSymbol w mover) args.timeframes s.poll
        liveMovers movers step.2 step.1

end

/-! ## The cycle -/

/-- Where the observation of the stored signals left the cycle. -/
structure Observed where
  /-- The stored signals with the statuses that the observation gave them. -/
  current : List PaperActionSignal
  stalePfrIds : List String
  networkFetches : ℕ
  polls : ℕ
  gateCounts : List String
  pfrCounts : List String

def newLimit (args : CycleArgs) : ℕ := args.maxNew.toNat

/-- `min(max_new, max(0, int(pfr_reserved_new)))`, and nothing without the farm's database. -/
def pfrReserved (args : CycleArgs) : ℕ :=
  if args.pfrDb then min (newLimit args) args.pfrReservedNew.toNat else 0

def pfrCap (args : CycleArgs) : ℕ :=
  if pfrReserved args = 0 then newLimit args else pfrReserved args

section
variable (h : History) (o : Observed)

def pfrKeyActive : List String :=
  ((h.existing.filter fun s => s.status ∈ activeStatuses ∧ s.source = "pfr_farm").map
    (·.dedupKey)).filter fun key =>
      ¬ ∃ s ∈ h.existing, s.signalId ∈ o.stalePfrIds ∧ s.dedupKey = key

def activeKeys : List String :=
  ((h.existing.filter fun s => s.status ∈ activeStatuses).map (·.dedupKey)).filter fun key =>
    ¬ ∃ s ∈ h.existing, s.signalId ∈ o.stalePfrIds ∧ s.dedupKey = key

def activeSetupIds : List String :=
  ((o.current.filter fun s => s.status ∈ activeStatuses ∧ s.source = "pfr_farm" ∧
    s.signalId ∉ o.stalePfrIds).map fun s => w.text s.validatorContext "setup_id").filter (· ≠ "")

/-- The validated setups of the cycle; the poll before them may skip them, and then nothing that
was counted for them is taken over. -/
def pfrPhase (records : List Dict) : PfrState C :=
  let start : PfrState C :=
    ⟨o.pfrCounts, [], [], pfrKeyActive h o, activeSetupIds w o, 0, 0, o.polls⟩
  if args.pfrDb = true ∧ 0 < newLimit args then
    let polled := { start with polls := o.polls + 1 }
    if w.stop o.polls then { polled with counts := [] }
    else generatePfrSignals w args (pfrCap args) h.recentTerminal records polled
  else { start with counts := [] }

/-- The limits of the cycle's own loops over the movers. -/
def cycleLimits (pfr : PfrState C) : Limits :=
  ⟨some (newLimit args - pfr.generated.length), args.maxLiveFetches.map Int.toNat,
    args.maxNetworkFetches.map Int.toNat, w.stop⟩

/-- Where the loops over the movers start. -/
def liveStart (pfr : PfrState C) : LiveState C where
  newSigs := pfr.generated
  byKeyActive := pfr.generated.map (·.1.dedupKey) ++ activeKeys h o
  networkFetches := o.networkFetches
  polls := pfr.polls
  counts := o.gateCounts ++ pfr.counts

/-- The new signals of a cycle: `new_sigs` and what the cycle counted. -/
def newSignals (records movers : List Dict) : LiveState C :=
  let pfr := pfrPhase w args h o records
  liveMovers w args h (cycleLimits w args pfr) movers false (liveStart h o pfr)

end

end ResearchLab.PaperSignals
