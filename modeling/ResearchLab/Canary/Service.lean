import ResearchLab.Canary.Watchdog
import ResearchLab.Foundation.Machine

/-!
# The monitoring service

One thread for each lane and a supervisor share the watchdogs under a lock. Every thread reads the
clock before it takes the lock, so that it can enter with an older time than the thread before it.
-/
namespace ResearchLab.Canary
open Foundation

inductive SampleState
  | healthy | degraded | failed
  deriving DecidableEq

/-- `CanaryLaneSample`; `none` is the empty payload. -/
structure Sample (β : Type) where
  lane : Lane
  state : SampleState
  payload : Option β
  errorType : Option String
  watchdog : Assessment
  deriving DecidableEq

/-- What a probe comes to. -/
inductive Outcome (β : Type)
  | success (payload : β)
  | error (errorType : String)
  | hardFailure (errorType message : String)
  deriving DecidableEq

/-- Where a lane's thread stands. -/
inductive LanePhase (β : Type)
  | looping
  | probing
  | sampled (outcome : Outcome β) (now : ℚ)
  | reporting (sample : Sample β)
  | failing (assessment : Assessment)
  | escalating (assessment : Assessment)
  | waiting
  | returned
  | crashed (message : String)
  deriving DecidableEq

/-- Where the supervisor stands; a failing or escalating one has lanes left to report. -/
inductive SupervisorPhase
  | waiting
  | sampled (now : ℚ)
  | failing (left : List (Lane × Assessment))
  | escalating (lane : Lane) (assessment : Assessment) (left : List (Lane × Assessment))
  | returned
  | crashed (message : String)
  deriving DecidableEq

/-- The service with the calls that it made: `_fail_once`, `on_sample` and `on_failure`. -/
structure Service (β : Type) where
  clock : ℚ
  watchdogs : Lane → Watchdog
  phase : Lane → LanePhase β
  supervisor : SupervisorPhase := .waiting
  stop : Bool := false
  failureLane : Option Lane := none
  reports : List (Lane × Assessment) := []
  samples : List (Sample β) := []
  failures : List (Lane × Assessment) := []

variable {β : Type}

/-- The service before its threads run. -/
def Service.start (clock startedAt : ℚ) : Service β where
  clock
  watchdogs lane := .new startedAt lane.maxSampleGapSeconds
  phase _ := .looping

def Service.setPhase (s : Service β) (lane : Lane) (phase : LanePhase β) : Service β :=
  { s with phase := Function.update s.phase lane phase }

/-! ## Under the lock -/

/-- `str(exc)[:160] or "probe_hard_failure"`. -/
def hardFailureReason (message : String) : String :=
  if message = "" then "probe_hard_failure" else String.ofList (message.toList.take 160)

/-- `record_success`, `record_error`, and what a hard failure records. -/
def record (w : Watchdog) (lane : Lane) (outcome : Outcome β) (now : ℚ) :
    Except String (Watchdog × Sample β) :=
  match outcome with
  | .success payload => (w.recordFastSample now).map fun (w, assessment) =>
      (w, { lane
            state := if assessment.failureReason = none then .healthy else .failed
            payload := some payload
            errorType := none
            watchdog := assessment })
  | .error errorType => (w.assess now).map fun (w, assessment) =>
      (w, { lane
            state := if assessment.failureReason = none then .degraded else .failed
            payload := none
            errorType := some (String.ofList (errorType.toList.take 120))
            watchdog := assessment })
  | .hardFailure errorType message => (w.assess now).map fun (w, prior) =>
      (w, { lane
            state := .failed
            payload := none
            errorType := some errorType
            watchdog :=
              { prior with
                failureReason := some (hardFailureReason message)
                alertCount := prior.alertCount + 1 } })

/-- The supervisor's assessment of every lane. -/
def assessAll (now : ℚ) : List Lane → (Lane → Watchdog) →
    (Lane → Watchdog) × Except String (List (Lane × Assessment))
  | [], watchdogs => (watchdogs, .ok [])
  | lane :: lanes, watchdogs =>
    match (watchdogs lane).assess now with
    | .error message => (watchdogs, .error message)
    | .ok (w, assessment) =>
      let rest := assessAll now lanes (Function.update watchdogs lane w)
      (rest.1, rest.2.map ((lane, assessment) :: ·))

/-- The lock of `_fail_once`: the first report is latched. -/
def Service.latch (s : Service β) (lane : Lane) (assessment : Assessment) : Service β :=
  { s with
    failureLane := if s.failureLane = none then some lane else s.failureLane
    reports := s.reports ++ [(lane, assessment)] }

/-- The rest of `_fail_once` for the first report. -/
def Service.escalate (s : Service β) (lane : Lane) (assessment : Assessment) : Service β :=
  { s with
    stop := true
    failures := s.failures ++ [(lane, assessment)] }

/-! ## Threads -/

/-- The next step of `_run_lane`; the outcome is that of the probe. -/
def laneStep (s : Service β) (lane : Lane) (outcome : Outcome β) : Service β :=
  match s.phase lane with
  | .looping => s.setPhase lane (if s.stop then .returned else .probing)
  | .probing => s.setPhase lane (.sampled outcome s.clock)
  | .sampled outcome now =>
    match record (s.watchdogs lane) lane outcome now with
    | .error message => s.setPhase lane (.crashed message)
    | .ok (w, sample) =>
      { s with watchdogs := Function.update s.watchdogs lane w }.setPhase lane (.reporting sample)
  | .reporting sample =>
    { s with samples := s.samples ++ [sample] }.setPhase lane
      (if sample.watchdog.failureReason = none then .waiting else .failing sample.watchdog)
  | .failing assessment =>
    (s.latch lane assessment).setPhase lane
      (if s.failureLane = none then .escalating assessment else .returned)
  | .escalating assessment => (s.escalate lane assessment).setPhase lane .returned
  | .waiting => s.setPhase lane (if s.stop then .returned else .looping)
  | .returned => s
  | .crashed _ => s

/-- The next step of `_run_supervisor`. -/
def supervisorStep (lanes : List Lane) (s : Service β) : Service β :=
  match s.supervisor with
  | .waiting => { s with supervisor := if s.stop then .returned else .sampled s.clock }
  | .sampled now =>
    match assessAll now lanes s.watchdogs with
    | (watchdogs, .error message) => { s with watchdogs, supervisor := .crashed message }
    | (watchdogs, .ok assessments) =>
      { s with
        watchdogs
        supervisor := .failing (assessments.filter fun a => a.2.failureReason ≠ none) }
  | .failing [] => { s with supervisor := .waiting }
  | .failing ((lane, assessment) :: left) =>
    { s.latch lane assessment with
      supervisor :=
        if s.failureLane = none then .escalating lane assessment left else .failing left }
  | .escalating lane assessment left =>
    { s.escalate lane assessment with supervisor := .failing left }
  | .returned => s
  | .crashed _ => s

/-- Who moves, or the time that the clock moves to. -/
inductive Action (β : Type)
  | tick (now : ℚ)
  | lane (lane : Lane) (outcome : Outcome β)
  | supervisor

def step (lanes : List Lane) (s : Service β) : Action β → Service β
  | .tick now => { s with clock := now }
  | .lane lane outcome => laneStep s lane outcome
  | .supervisor => supervisorStep lanes s

/-- What the clock and the scheduler can do. -/
def possible (lanes : List Lane) (s : Service β) : Action β → Bool
  | .tick now => s.clock ≤ now
  | .lane lane _ => lane ∈ lanes
  | .supervisor => true

/-- Threads in any order. -/
def service (lanes : List Lane) : Machine (Service β) (Action β) where
  init s := ∃ clock startedAt, s = .start clock startedAt
  enabled s action := possible lanes s action
  step := step lanes

end ResearchLab.Canary
