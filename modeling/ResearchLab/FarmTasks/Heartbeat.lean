import Mathlib
import ResearchLab.Foundation.Machine

/-!
# The heartbeat of a task claim

`TaskClaimHeartbeat`: a background thread renews the claim of a task while foreground threads
report progress. Every section under `_lock` is one step, and so is every call of the ownership
store and of the task database, whose answers are part of the input; `_renewal_gate` is held
across steps.
-/
namespace ResearchLab.FarmTasks

open Foundation

/-! ## The object -/

/-- The intervals that `__init__` accepts. -/
structure HeartbeatIntervals where
  leaseSeconds : ℚ
  renewIntervalSeconds : ℚ
  maxNoProgressSeconds : ℚ
  renewalBusyTimeoutSeconds : ℚ
  renewalRetrySeconds : ℚ
  maxRenewalContentionSeconds : ℚ
  renew_pos : 0 < renewIntervalSeconds := by norm_num
  progress_pos : 0 < maxNoProgressSeconds := by norm_num
  busy_pos : 0 < renewalBusyTimeoutSeconds := by norm_num
  retry_pos : 0 < renewalRetrySeconds := by norm_num
  renew_lt_lease : renewIntervalSeconds < leaseSeconds := by norm_num
  busy_le_contention : renewalBusyTimeoutSeconds ≤ maxRenewalContentionSeconds := by norm_num
  contention_lt_lease : renewIntervalSeconds + maxRenewalContentionSeconds < leaseSeconds := by
    norm_num

inductive HeartbeatFailure
  | taskClaimProgressStalled
  | taskClaimRenewalContentionExceeded
  | staleTaskClaimError
  | otherException
  deriving DecidableEq

/-- What `_renew_if_progressed` has read under the lock. -/
structure ProgressCheck where
  renewedSequence : ℕ
  progressSequence : ℕ
  lastProgressMono : ℚ
  readAt : ℚ
  deriving DecidableEq

/-- A renewal that the database has committed. -/
structure Renewal where
  check : ProgressCheck
  lastProgressMono : ℚ
  committedAt : ℚ
  deriving DecidableEq

/-- The counters under the lock, and the history that they count: when the claim was acquired, when
progress was reported, and which renewals were committed, the latest first. -/
structure ProgressCounters where
  lastProgressMono : ℚ
  progressSequence : ℕ := 1
  renewedProgressSequence : ℕ := 0
  renewals : ℕ := 0
  claimExpiresAt : ℚ
  claimedAt : ℚ
  progressCalls : List ℚ := []
  committed : List Renewal := []
  deriving DecidableEq

/-- The line that the background thread is at. -/
inductive RenewalStage
  | opening
  | resting
  | waiting (deadline : ℚ)
  | attempting
  | atGate (attemptStarted : ℚ)
  | admitted (attemptStarted : ℚ)
  | checking (attemptStarted : ℚ)
  | proving (attemptStarted : ℚ) (check : ProgressCheck)
  | renewing (attemptStarted : ℚ) (check : ProgressCheck)
  | recording (check : ProgressCheck) (claimExpiresAt : ℚ)
  | contended (attemptStarted : ℚ)
  | budgeting
  | retrying (deadline : ℚ)
  | failing (failure : HeartbeatFailure)
  | halting
  | ended
  deriving DecidableEq

def RenewalStage.isAtGate : RenewalStage → Bool
  | .atGate _ => true
  | _ => false

/-- The attempt has passed its stop check and not renewed yet. -/
def RenewalStage.inFlight : RenewalStage → ℕ
  | .checking _ | .proving _ _ | .renewing _ _ => 1
  | _ => 0

/-- No renewal has been checked that is not recorded. -/
def RenewalStage.isQuiet : RenewalStage → Bool
  | .checking _ | .proving _ _ | .renewing _ _ | .recording _ _ => false
  | _ => true

/-- The public calls of foreground threads. -/
inductive ForegroundCall
  | progress
  | assertActive
  | foregroundDbWrite
  | stop
  deriving DecidableEq

/-- The line that a foreground thread is at; `gated` threads hold the renewal gate. -/
inductive ForegroundStage
  | idle
  | reporting
  | progressing
  | atGate
  | asserting (gated : Bool)
  | aging (gated : Bool)
  | proving (gated : Bool)
  | claiming (gated : Bool)
  | failing (failure : HeartbeatFailure) (gated : Bool)
  | halting (gated : Bool)
  | writing
  deriving DecidableEq

structure Heartbeat (ι : Type*) where
  mono : ℚ
  clock : ℚ
  counters : ProgressCounters
  failure : Option HeartbeatFailure := none
  stop : Bool := false
  stopRequested : Bool := false
  gateHeld : Bool := false
  contentionStartedMono : Option ℚ := none
  contentionEvents : ℕ := 0
  background : RenewalStage := .opening
  foreground : ι → ForegroundStage := fun _ => .idle

/-- The answer of a store or a database. -/
inductive HeartbeatReply
  | current (holds : Bool)
  | renewed (claimExpiresAt : ℚ)
  | contention
  | staleClaim
  | raised
  deriving DecidableEq

inductive HeartbeatInput (ι : Type*)
  | tick (d clock : ℚ)
  | requestStop (requested : Bool)
  | call (p : ι) (call : ForegroundCall)
  | foreground (p : ι) (reply : HeartbeatReply)
  | background (reply : HeartbeatReply)

/-! ## Its steps -/

def ProgressCounters.progress (c : ProgressCounters) (mono : ℚ) : ProgressCounters :=
  { c with
    lastProgressMono := mono
    progressSequence := c.progressSequence + 1
    progressCalls := mono :: c.progressCalls }

/-- The commit of the database. -/
def ProgressCounters.commit (c : ProgressCounters) (check : ProgressCheck) (mono : ℚ) :
    ProgressCounters :=
  { c with committed := ⟨check, c.lastProgressMono, mono⟩ :: c.committed }

/-- What is written under the lock after the commit. -/
def ProgressCounters.record (c : ProgressCounters) (check : ProgressCheck) (claimExpiresAt : ℚ) :
    ProgressCounters :=
  { c with
    renewedProgressSequence := check.progressSequence
    renewals := c.renewals + 1
    claimExpiresAt := claimExpiresAt }

namespace Heartbeat

variable {ι : Type*} [DecidableEq ι] {cfg : HeartbeatIntervals}

/-- `_stopping`. -/
def stopping (s : Heartbeat ι) : Bool := s.stop || s.stopRequested

/-- `_raise_if_inactive` raises. -/
def inactive (s : Heartbeat ι) : Bool := s.stopping || s.failure.isSome

/-- The first step of `_record_failure`; the second sets the stop event. -/
def recordFailure (s : Heartbeat ι) (failure : HeartbeatFailure) : Heartbeat ι :=
  { s with failure := some (s.failure.getD failure) }

def moveTo (s : Heartbeat ι) (stage : RenewalStage) : Heartbeat ι :=
  { s with background := stage }

def openGate (s : Heartbeat ι) : Heartbeat ι := { s with gateHeld := false }

/-- `_clear_active_contention`. -/
def clearContention (s : Heartbeat ι) : Heartbeat ι := { s with contentionStartedMono := none }

/-- `_record_renewal_contention`. -/
def recordContention (s : Heartbeat ι) (attemptStarted : ℚ) : Heartbeat ι :=
  { s with
    contentionStartedMono := some (s.contentionStartedMono.getD attemptStarted)
    contentionEvents := s.contentionEvents + 1 }

/-- `_assert_contention_budget` raises. -/
def BudgetSpent (cfg : HeartbeatIntervals) (s : Heartbeat ι) : Prop :=
  cfg.maxRenewalContentionSeconds ≤ (s.contentionStartedMono.elim 0 fun t => max 0 (s.mono - t)) ∨
    s.counters.claimExpiresAt ≤ s.clock + cfg.renewalRetrySeconds + cfg.renewalBusyTimeoutSeconds

instance budgetSpentDecidable (s : Heartbeat ι) : Decidable (s.BudgetSpent cfg) :=
  inferInstanceAs (Decidable (_ ∨ _))

/-- How long ago progress was reported. -/
def age (s : Heartbeat ι) : ℚ := s.mono - s.counters.lastProgressMono

/-- The check of `_renew_if_progressed`. -/
def checkProgress (cfg : HeartbeatIntervals) (s : Heartbeat ι) (attemptStarted : ℚ) :
    Heartbeat ι :=
  if cfg.maxNoProgressSeconds < s.age then s.openGate.moveTo (.failing .taskClaimProgressStalled)
  else if s.counters.progressSequence = s.counters.renewedProgressSequence then
    s.openGate.moveTo .resting
  else s.moveTo (.proving attemptStarted ⟨s.counters.renewedProgressSequence,
    s.counters.progressSequence, s.counters.lastProgressMono, s.mono⟩)

/-- An exception leaves `_renew_if_progressed`. -/
def raiseRenewal (s : Heartbeat ι) (attemptStarted : ℚ) : HeartbeatReply → Heartbeat ι
  | .contention => s.openGate.moveTo (.contended attemptStarted)
  | .staleClaim => s.openGate.moveTo (.failing .staleTaskClaimError)
  | _ => s.openGate.moveTo (.failing .otherException)

/-- The next step of the background thread. -/
def stepBackground (cfg : HeartbeatIntervals) (s : Heartbeat ι) (reply : HeartbeatReply) : Heartbeat ι :=
  match s.background with
  | .opening => if reply = .raised then s.moveTo (.failing .otherException) else s.moveTo .resting
  | .resting => s.moveTo (.waiting (s.mono + cfg.renewIntervalSeconds))
  | .waiting deadline =>
    if s.stopping then s.moveTo .ended else if deadline ≤ s.mono then s.moveTo .attempting else s
  | .attempting => if s.stopping then s.moveTo .resting else s.moveTo (.atGate s.mono)
  | .atGate attemptStarted => { s.moveTo (.admitted attemptStarted) with gateHeld := true }
  | .admitted attemptStarted =>
    if s.stopping then s.clearContention.openGate.moveTo .resting else s.moveTo (.checking attemptStarted)
  | .checking attemptStarted => s.checkProgress cfg attemptStarted
  | .proving attemptStarted check =>
    match reply with
    | .current true => s.moveTo (.renewing attemptStarted check)
    | .current false => s.raiseRenewal attemptStarted .staleClaim
    | reply => s.raiseRenewal attemptStarted reply
  | .renewing attemptStarted check =>
    match reply with
    | .renewed claimExpiresAt =>
      { s.moveTo (.recording check claimExpiresAt) with counters := s.counters.commit check s.mono }
    | reply => s.raiseRenewal attemptStarted reply
  | .recording check claimExpiresAt =>
    { s.clearContention.openGate.moveTo .resting with
      counters := s.counters.record check claimExpiresAt }
  | .contended attemptStarted =>
    if s.stopping then s.clearContention.moveTo .resting
    else (s.recordContention attemptStarted).moveTo .budgeting
  | .budgeting =>
    if s.stopping then s.clearContention.moveTo .resting
    else if s.BudgetSpent cfg then s.moveTo (.failing .taskClaimRenewalContentionExceeded)
    else s.moveTo (.retrying (s.mono + cfg.renewalRetrySeconds))
  | .retrying deadline =>
    if s.stopping then s.moveTo .resting else if deadline ≤ s.mono then s.moveTo .attempting else s
  | .failing failure => (s.recordFailure failure).moveTo .halting
  | .halting => { s.moveTo .ended with stop := true }
  | .ended => s

def goto (s : Heartbeat ι) (p : ι) (stage : ForegroundStage) : Heartbeat ι :=
  { s with foreground := Function.update s.foreground p stage }

/-- A foreground thread returns or raises, and leaves the gate if it is inside. -/
def leave (s : Heartbeat ι) (p : ι) (gated : Bool) : Heartbeat ι :=
  { s.goto p .idle with gateHeld := s.gateHeld && !gated }

def enter (s : Heartbeat ι) (p : ι) : ForegroundCall → Heartbeat ι
  | .progress => s.goto p .reporting
  | .assertActive => s.goto p (.asserting false)
  | .foregroundDbWrite => s.goto p .atGate
  | .stop => { s with stop := true }

/-- The next step of a foreground thread. -/
def stepForeground (cfg : HeartbeatIntervals) (s : Heartbeat ι) (p : ι) (reply : HeartbeatReply) :
    Heartbeat ι :=
  match s.foreground p with
  | .idle => s
  | .reporting => if s.inactive then s.leave p false else s.goto p .progressing
  | .progressing => { s.leave p false with counters := s.counters.progress s.mono }
  | .atGate => { s.goto p (.asserting true) with gateHeld := true }
  | .asserting gated => if s.inactive then s.leave p gated else s.goto p (.aging gated)
  | .aging gated =>
    if cfg.maxNoProgressSeconds < s.age then s.goto p (.failing .taskClaimProgressStalled gated)
    else s.goto p (.proving gated)
  | .proving gated =>
    match reply with
    | .current true => s.goto p (.claiming gated)
    | .current false => s.goto p (.failing .staleTaskClaimError gated)
    | _ => s.leave p gated
  | .claiming gated =>
    match reply with
    | .current true => if gated then s.goto p .writing else s.leave p false
    | _ => s.leave p gated
  | .failing failure gated => (s.recordFailure failure).goto p (.halting gated)
  | .halting gated => { s.leave p gated with stop := true }
  | .writing => s.leave p true

def perform (cfg : HeartbeatIntervals) (s : Heartbeat ι) : HeartbeatInput ι → Heartbeat ι
  | .tick d clock => { s with mono := s.mono + d, clock := clock }
  | .requestStop requested => { s with stopRequested := requested }
  | .call p call => s.enter p call
  | .foreground p reply => s.stepForeground cfg p reply
  | .background reply => s.stepBackground cfg reply

/-- Monotonic time does not go back, a thread is in one call at a time, and nobody enters the gate
while it is held. -/
def Enabled (s : Heartbeat ι) : HeartbeatInput ι → Prop
  | .tick d _ => 0 ≤ d
  | .call p _ => s.foreground p = .idle
  | .foreground p _ => s.foreground p = .atGate → s.gateHeld = false
  | .background _ => s.background.isAtGate = true → s.gateHeld = false
  | .requestStop _ => True

instance enabledDecidable (s : Heartbeat ι) (a : HeartbeatInput ι) : Decidable (s.Enabled a) := by
  cases a <;> unfold Enabled <;> infer_instance

/-- The heartbeat right after `__init__`. -/
def Initial (s : Heartbeat ι) : Prop :=
  ∃ mono clock claimExpiresAt stopRequested, s =
    { mono, clock, stopRequested
      counters := { lastProgressMono := mono, claimExpiresAt, claimedAt := mono } }

end Heartbeat

/-- The heartbeat of one claim under any threads, clocks, stores and databases. -/
def heartbeatMachine (ι : Type*) [DecidableEq ι] (cfg : HeartbeatIntervals) :
    Machine (Heartbeat ι) (HeartbeatInput ι) where
  init := Heartbeat.Initial
  enabled := Heartbeat.Enabled
  step := Heartbeat.perform cfg

/-! ## What the counters say of the history -/

/-- When the claim was acquired and progress was reported, in the order of the sequence numbers. -/
def ProgressCounters.progressTimes (c : ProgressCounters) : List ℚ :=
  c.claimedAt :: c.progressCalls.reverse

theorem ProgressCounters.progressTimes_progress (c : ProgressCounters) (mono : ℚ) :
    (c.progress mono).progressTimes = c.progressTimes ++ [mono] := by
  simp [progressTimes, progress]

@[simp] theorem ProgressCounters.progressTimes_commit (c : ProgressCounters) (check : ProgressCheck)
    (mono : ℚ) : (c.commit check mono).progressTimes = c.progressTimes := rfl

@[simp] theorem ProgressCounters.progressTimes_record (c : ProgressCounters) (check : ProgressCheck)
    (claimExpiresAt : ℚ) : (c.record check claimExpiresAt).progressTimes = c.progressTimes := rfl

/-- The sequence number up to which renewals have consumed progress. -/
def consumed : List Renewal → ℕ
  | [] => 0
  | r :: _ => r.check.progressSequence

/-- Every renewal consumes progress that the renewals before it have left. -/
def Consumes : List Renewal → Prop
  | [] => True
  | r :: rest => r.check.renewedSequence = consumed rest ∧
      r.check.renewedSequence < r.check.progressSequence ∧ Consumes rest

theorem length_le_consumed {renewals : List Renewal} (h : Consumes renewals) :
    renewals.length ≤ consumed renewals := by
  induction renewals with
  | nil => exact le_rfl
  | cons r rest ih =>
    obtain ⟨hfrom, hlt, hrest⟩ := h
    have := ih hrest
    simp only [List.length_cons, consumed]
    omega

/-- The check has read the last progress in time: whatever was reported later is later. -/
structure ProgressCheck.Sound (cfg : HeartbeatIntervals) (times : List ℚ) (mono : ℚ)
    (check : ProgressCheck) : Prop where
  le_length : check.progressSequence ≤ times.length
  last : times[check.progressSequence - 1]? = some check.lastProgressMono
  later : ∀ t ∈ times.drop check.progressSequence, check.readAt ≤ t
  timely : check.readAt - check.lastProgressMono ≤ cfg.maxNoProgressSeconds
  readAt_le : check.readAt ≤ mono

namespace ProgressCheck.Sound

variable {cfg : HeartbeatIntervals} {times : List ℚ} {mono mono' : ℚ} {check : ProgressCheck}

theorem advance (h : check.Sound cfg times mono) (hmono : mono ≤ mono') :
    check.Sound cfg times mono' :=
  { h with readAt_le := h.readAt_le.trans hmono }

theorem progress (h : check.Sound cfg times mono) : check.Sound cfg (times ++ [mono]) mono where
  le_length := by
    have := h.le_length
    simp only [List.length_append]
    omega
  last := by
    obtain ⟨hlt, -⟩ := List.getElem?_eq_some_iff.1 h.last
    rw [List.getElem?_append_left hlt]
    exact h.last
  later := by
    intro t ht
    rw [List.drop_append_of_le_length h.le_length] at ht
    rcases List.mem_append.1 ht with ht | ht
    · exact h.later t ht
    · obtain rfl := List.mem_singleton.1 ht
      exact h.readAt_le
  timely := h.timely
  readAt_le := h.readAt_le

end ProgressCheck.Sound

/-- What the background thread knows of the counters at its line. -/
def RenewalStage.Sound (cfg : HeartbeatIntervals) (c : ProgressCounters) (mono : ℚ) :
    RenewalStage → Prop
  | .proving _ check | .renewing _ check =>
      check.Sound cfg c.progressTimes mono ∧ check.renewedSequence = consumed c.committed ∧
        check.renewedSequence < check.progressSequence ∧
        c.renewedProgressSequence = consumed c.committed ∧ c.renewals = c.committed.length
  | .recording check _ =>
      check.progressSequence = consumed c.committed ∧ c.renewals + 1 = c.committed.length
  | _ => c.renewedProgressSequence = consumed c.committed ∧ c.renewals = c.committed.length

theorem RenewalStage.Sound.advance {cfg : HeartbeatIntervals} {c : ProgressCounters} {mono mono' : ℚ}
    {stage : RenewalStage} (h : stage.Sound cfg c mono) (hmono : mono ≤ mono') :
    stage.Sound cfg c mono' := by
  cases stage with
  | proving t check => exact ⟨h.1.advance hmono, h.2⟩
  | renewing t check => exact ⟨h.1.advance hmono, h.2⟩
  | _ => exact h

theorem RenewalStage.Sound.progress {cfg : HeartbeatIntervals} {c : ProgressCounters} {mono : ℚ}
    {stage : RenewalStage} (h : stage.Sound cfg c mono) : stage.Sound cfg (c.progress mono) mono := by
  cases stage with
  | proving t check => exact ⟨c.progressTimes_progress mono ▸ h.1.progress, h.2⟩
  | renewing t check => exact ⟨c.progressTimes_progress mono ▸ h.1.progress, h.2⟩
  | _ => exact h

theorem RenewalStage.sound_of_quiet {cfg : HeartbeatIntervals} {c : ProgressCounters} {mono : ℚ}
    {stage : RenewalStage} (hquiet : stage.isQuiet = true) :
    stage.Sound cfg c mono ↔
      c.renewedProgressSequence = consumed c.committed ∧ c.renewals = c.committed.length := by
  cases stage <;> first | exact Iff.rfl | cases hquiet

namespace Heartbeat

structure Inv (cfg : HeartbeatIntervals) {ι : Type*} (s : Heartbeat ι) : Prop where
  sequence_eq : s.counters.progressSequence = s.counters.progressTimes.length
  last_eq : s.counters.progressTimes.getLast? = some s.counters.lastProgressMono
  consumes : Consumes s.counters.committed
  sound : ∀ r ∈ s.counters.committed, r.check.Sound cfg s.counters.progressTimes s.mono
  stage : s.background.Sound cfg s.counters s.mono

/-! ## What one step can do -/

variable {ι : Type*} {cfg : HeartbeatIntervals} {s s' : Heartbeat ι}

/-- A step of the background thread moves an attempt on, or gives it up. -/
inductive Moved (cfg : HeartbeatIntervals) (s s' : Heartbeat ι) : Prop
  | began (t : ℚ) (was : s.background = .admitted t) (now : s'.background = .checking t)
      (running : s.stop = false) (counters : s'.counters = s.counters)
  | checked (t : ℚ) (check : ProgressCheck) (was : s.background = .checking t)
      (now : s'.background = .proving t check) (young : s.age ≤ cfg.maxNoProgressSeconds)
      (unrenewed : s.counters.progressSequence ≠ s.counters.renewedProgressSequence)
      (read : check = ⟨s.counters.renewedProgressSequence, s.counters.progressSequence,
        s.counters.lastProgressMono, s.mono⟩)
      (counters : s'.counters = s.counters)
  | proved (t : ℚ) (check : ProgressCheck) (was : s.background = .proving t check)
      (now : s'.background = .renewing t check) (counters : s'.counters = s.counters)
  | committed (t : ℚ) (check : ProgressCheck) (claimExpiresAt : ℚ)
      (was : s.background = .renewing t check)
      (now : s'.background = .recording check claimExpiresAt)
      (counters : s'.counters = s.counters.commit check s.mono)
  | recorded (check : ProgressCheck) (claimExpiresAt : ℚ)
      (was : s.background = .recording check claimExpiresAt) (now : s'.background = .resting)
      (counters : s'.counters = s.counters.record check claimExpiresAt)
  | quiet (was : ∀ check claimExpiresAt, s.background ≠ .recording check claimExpiresAt)
      (now : s'.background.isQuiet = true) (counters : s'.counters = s.counters)

theorem moved_raiseRenewal (attemptStarted : ℚ) (reply : HeartbeatReply)
    (was : ∀ check claimExpiresAt, s.background ≠ .recording check claimExpiresAt) :
    Moved cfg s (s.raiseRenewal attemptStarted reply) := by
  cases reply <;> exact .quiet was rfl rfl

theorem moved_checkProgress {t : ℚ} (h : s.background = .checking t) :
    Moved cfg s (s.checkProgress cfg t) := by
  have was : ∀ check claimExpiresAt, s.background ≠ .recording check claimExpiresAt := by simp [h]
  rw [checkProgress]
  split_ifs with hold hsame
  · exact .quiet was rfl rfl
  · exact .quiet was rfl rfl
  · exact .checked t _ h rfl (not_lt.1 hold) hsame rfl rfl

theorem moved_stepBackground (reply : HeartbeatReply) : Moved cfg s (s.stepBackground cfg reply) := by
  have hstage : ∀ stage, s.background = stage →
      (∀ check claimExpiresAt, stage ≠ .recording check claimExpiresAt) →
      ∀ check claimExpiresAt, s.background ≠ .recording check claimExpiresAt := by
    rintro _ rfl h
    exact h
  rw [stepBackground]
  cases h : s.background with
  | checking t => exact moved_checkProgress h
  | proving t check =>
    have was := hstage _ h (by simp)
    rcases reply with ⟨_ | _⟩ | _ | _ | _ | _
    case current.true => exact .proved t check h rfl rfl
    all_goals exact moved_raiseRenewal t _ was
  | renewing t check =>
    have was := hstage _ h (by simp)
    cases reply with
    | renewed claimExpiresAt => exact .committed t check claimExpiresAt h rfl rfl
    | _ => exact moved_raiseRenewal t _ was
  | recording check claimExpiresAt => exact .recorded check claimExpiresAt h rfl rfl
  | admitted t =>
    dsimp only
    split_ifs with hstop
    · exact .quiet (hstage _ h (by simp)) rfl rfl
    · have hrunning : s.stop = false ∧ s.stopRequested = false := by simpa [stopping] using hstop
      exact .began t h rfl hrunning.1 rfl
  | waiting deadline =>
    dsimp only
    split_ifs
    · exact .quiet (hstage _ h (by simp)) rfl rfl
    · exact .quiet (hstage _ h (by simp)) rfl rfl
    · exact .quiet (hstage _ h (by simp)) (by rw [h]; rfl) rfl
  | retrying deadline =>
    dsimp only
    split_ifs
    · exact .quiet (hstage _ h (by simp)) rfl rfl
    · exact .quiet (hstage _ h (by simp)) rfl rfl
    · exact .quiet (hstage _ h (by simp)) (by rw [h]; rfl) rfl
  | ended => exact .quiet (hstage _ h (by simp)) (by rw [h]; rfl) rfl
  | _ =>
    dsimp only
    try split_ifs
    all_goals exact .quiet (hstage _ h (by simp)) rfl rfl

/-- A step of the clock, the environment or a foreground thread reports progress at most. -/
structure Outside (s s' : Heartbeat ι) : Prop where
  background_eq : s'.background = s.background
  mono_le : s.mono ≤ s'.mono
  counters : s'.counters = s.counters ∨
    s'.mono = s.mono ∧ s'.counters = s.counters.progress s.mono
  stop : s.stop = true → s'.stop = true

/-! ## The invariant -/

theorem Inv.outside (h : s.Inv cfg) (ho : Outside s s') : s'.Inv cfg := by
  obtain ⟨hbackground, hmono, hsame | ⟨hstill, hprogress⟩, -⟩ := ho
  · refine ⟨by rw [hsame]; exact h.sequence_eq, by rw [hsame]; exact h.last_eq,
      by rw [hsame]; exact h.consumes, ?_, ?_⟩
    · intro r hr
      rw [hsame] at hr ⊢
      exact (h.sound r hr).advance hmono
    · rw [hsame, hbackground]
      exact h.stage.advance hmono
  · refine ⟨?_, ?_, by rw [hprogress]; exact h.consumes, ?_, ?_⟩
    · rw [hprogress, ProgressCounters.progressTimes_progress, List.length_append,
        ← h.sequence_eq]
      rfl
    · rw [hprogress, ProgressCounters.progressTimes_progress]
      simp [ProgressCounters.progress]
    · intro r hr
      rw [hprogress] at hr ⊢
      rw [hstill, ProgressCounters.progressTimes_progress]
      exact (h.sound r hr).progress
    · rw [hprogress, hbackground, hstill]
      exact h.stage.progress

theorem Inv.consumed_le (h : s.Inv cfg) :
    consumed s.counters.committed ≤ s.counters.progressSequence := by
  rw [h.sequence_eq]
  cases hrenewals : s.counters.committed with
  | nil => exact Nat.zero_le _
  | cons r rest => exact (h.sound r (by simp [hrenewals])).le_length

/-- Outside of the section that records a renewal the counters agree with the history. -/
theorem Inv.recorded (h : s.Inv cfg)
    (was : ∀ check claimExpiresAt, s.background ≠ .recording check claimExpiresAt) :
    s.counters.renewedProgressSequence = consumed s.counters.committed ∧
      s.counters.renewals = s.counters.committed.length := by
  have hstage := h.stage
  cases hs : s.background with
  | proving t check =>
    rw [hs] at hstage
    exact hstage.2.2.2
  | renewing t check =>
    rw [hs] at hstage
    exact hstage.2.2.2
  | recording check claimExpiresAt => exact absurd hs (was check claimExpiresAt)
  | _ =>
    rw [hs] at hstage
    exact hstage

theorem Inv.sameCounters (h : s.Inv cfg) (hc : s'.counters = s.counters) (hmono : s'.mono = s.mono)
    (hstage : s'.background.Sound cfg s.counters s.mono) : s'.Inv cfg where
  sequence_eq := by rw [hc]; exact h.sequence_eq
  last_eq := by rw [hc]; exact h.last_eq
  consumes := by rw [hc]; exact h.consumes
  sound := by rw [hc, hmono]; exact h.sound
  stage := by rw [hc, hmono]; exact hstage

/-- What the check reads under the lock is sound. -/
theorem Inv.check (h : s.Inv cfg) (young : s.age ≤ cfg.maxNoProgressSeconds) :
    (⟨s.counters.renewedProgressSequence, s.counters.progressSequence,
      s.counters.lastProgressMono, s.mono⟩ : ProgressCheck).Sound cfg s.counters.progressTimes
        s.mono where
  le_length := h.sequence_eq.le
  last := by
    have hlast := h.last_eq
    rw [List.getLast?_eq_getElem?, ← h.sequence_eq] at hlast
    exact hlast
  later := by
    intro t ht
    rw [h.sequence_eq, List.drop_length] at ht
    cases ht
  timely := young
  readAt_le := le_rfl

theorem Inv.moved (h : s.Inv cfg) (hm : Moved cfg s s') (hmono : s'.mono = s.mono) : s'.Inv cfg := by
  have hstage := h.stage
  cases hm with
  | began t was now running counters =>
    refine h.sameCounters counters hmono ?_
    rw [now]
    exact h.recorded (by simp [was])
  | checked t check was now young unrenewed read counters =>
    have hrecorded := h.recorded (by simp [was])
    have hle := h.consumed_le
    refine h.sameCounters counters hmono ?_
    rw [now, read]
    refine ⟨h.check young, hrecorded.1, ?_, hrecorded⟩
    simp only
    omega
  | proved t check was now counters =>
    refine h.sameCounters counters hmono ?_
    rw [was] at hstage
    rw [now]
    exact hstage
  | committed t check claimExpiresAt was now counters =>
    rw [was] at hstage
    obtain ⟨hsound, hfrom, hlt, hrenewed, hrenewals⟩ := hstage
    refine ⟨by rw [counters]; exact h.sequence_eq, by rw [counters]; exact h.last_eq, ?_, ?_, ?_⟩
    · rw [counters]
      exact ⟨hfrom, hlt, h.consumes⟩
    · rw [counters, hmono]
      intro r hr
      rcases List.mem_cons.1 hr with rfl | hr
      · exact hsound
      · exact h.sound r hr
    · rw [counters, now]
      exact ⟨rfl, congrArg (· + 1) hrenewals⟩
  | recorded check claimExpiresAt was now counters =>
    rw [was] at hstage
    refine ⟨by rw [counters]; exact h.sequence_eq, by rw [counters]; exact h.last_eq,
      by rw [counters]; exact h.consumes, by rw [counters, hmono]; exact h.sound, ?_⟩
    rw [counters, now]
    exact hstage
  | quiet was now counters =>
    refine h.sameCounters counters hmono ?_
    rw [RenewalStage.sound_of_quiet now]
    exact h.recorded was

/-- The background thread moves no clock, and resets no stop event. -/
theorem stepBackground_still (reply : HeartbeatReply) :
    (s.stepBackground cfg reply).mono = s.mono ∧
      (s.stop = true → (s.stepBackground cfg reply).stop = true) := by
  have hraise : ∀ t reply, (s.raiseRenewal t reply).mono = s.mono ∧
      (s.raiseRenewal t reply).stop = s.stop := by
    intro t reply
    cases reply <;> exact ⟨rfl, rfl⟩
  rw [stepBackground]
  cases s.background with
  | checking t =>
    dsimp only
    rw [checkProgress]
    split_ifs <;> exact ⟨rfl, id⟩
  | proving t check =>
    rcases reply with ⟨_ | _⟩ | _ | _ | _ | _
    case current.true => exact ⟨rfl, id⟩
    all_goals exact ⟨(hraise t _).1, fun h => (hraise t _).2.trans h⟩
  | renewing t check =>
    cases reply with
    | renewed claimExpiresAt => exact ⟨rfl, id⟩
    | _ => exact ⟨(hraise t _).1, fun h => (hraise t _).2.trans h⟩
  | halting => exact ⟨rfl, fun _ => rfl⟩
  | _ =>
    dsimp only
    try split_ifs
    all_goals exact ⟨rfl, id⟩

theorem inv_initial (h : s.Initial) : s.Inv cfg := by
  obtain ⟨mono, clock, claimExpiresAt, stopRequested, rfl⟩ := h
  exact ⟨rfl, rfl, trivial, fun r hr => absurd hr List.not_mem_nil, rfl, rfl⟩

variable [DecidableEq ι]

theorem outside_stepForeground (p : ι) (reply : HeartbeatReply) :
    Outside s (s.stepForeground cfg p reply) := by
  rw [stepForeground]
  cases s.foreground p with
  | progressing => exact ⟨rfl, le_rfl, .inr ⟨rfl, rfl⟩, id⟩
  | halting gated => exact ⟨rfl, le_rfl, .inl rfl, fun _ => rfl⟩
  | proving gated =>
    rcases reply with ⟨_ | _⟩ | _ | _ | _ | _ <;> exact ⟨rfl, le_rfl, .inl rfl, id⟩
  | claiming gated =>
    rcases reply with ⟨_ | _⟩ | _ | _ | _ | _ <;> try exact ⟨rfl, le_rfl, .inl rfl, id⟩
    dsimp only
    split_ifs <;> exact ⟨rfl, le_rfl, .inl rfl, id⟩
  | _ =>
    dsimp only
    try split_ifs
    all_goals exact ⟨rfl, le_rfl, .inl rfl, id⟩

theorem outside_perform {a : HeartbeatInput ι} (h : s.Enabled a)
    (ha : ∀ reply, a ≠ .background reply) : Outside s (s.perform cfg a) := by
  cases a with
  | tick d clock => exact ⟨rfl, le_add_of_nonneg_right h, .inl rfl, id⟩
  | requestStop requested => exact ⟨rfl, le_rfl, .inl rfl, id⟩
  | call p call => cases call <;> exact ⟨rfl, le_rfl, .inl rfl, fun h => by first | exact h | rfl⟩
  | foreground p reply => exact outside_stepForeground p reply
  | background reply => exact absurd rfl (ha reply)

/-- The step lemma. -/
theorem Inv.perform (h : s.Inv cfg) {a : HeartbeatInput ι} (ha : s.Enabled a) :
    (s.perform cfg a).Inv cfg := by
  by_cases hb : ∃ reply, a = .background reply
  · obtain ⟨reply, rfl⟩ := hb
    exact h.moved (moved_stepBackground reply) (stepBackground_still reply).1
  · exact h.outside (outside_perform ha fun reply hreply => hb ⟨reply, hreply⟩)

/-- The run lemma. -/
theorem inv_of_reachable (h : (heartbeatMachine ι cfg).Reachable s) : s.Inv cfg :=
  h.invariant (fun _ => inv_initial) fun _ _ _ hinv ha => hinv.perform ha

/-! ## What renewals need -/

/-- A failure is recorded and the stop event is set. -/
def Failed (s : Heartbeat ι) : Prop := s.failure.isSome = true ∧ s.stop = true

instance failedDecidable (s : Heartbeat ι) : Decidable s.Failed := inferInstanceAs (Decidable (_ ∧ _))

/-- A stopped heartbeat renews for the attempt in flight at most. -/
theorem committed_of_stop {inputs : List (HeartbeatInput ι)}
    (h : (heartbeatMachine ι cfg).Steps s inputs s') (hr : (heartbeatMachine ι cfg).Reachable s)
    (hstop : s.stop = true) :
    s'.counters.committed.length ≤ s.counters.committed.length + s.background.inFlight := by
  have hkept : s'.stop = true ∧ s'.counters.committed.length + s'.background.inFlight ≤
      s.counters.committed.length + s.background.inFlight := by
    refine h.preserves (P := fun t => t.stop = true ∧
      t.counters.committed.length + t.background.inFlight ≤
        s.counters.committed.length + s.background.inFlight) ?_ hr ⟨hstop, le_rfl⟩
    intro t a _ ⟨ht, hle⟩ ha
    by_cases hb : ∃ reply, a = .background reply
    · obtain ⟨reply, rfl⟩ := hb
      refine ⟨(stepBackground_still reply).2 ht, hle.trans' ?_⟩
      change (t.stepBackground cfg reply).counters.committed.length +
        (t.stepBackground cfg reply).background.inFlight ≤ _
      have hquiet : ∀ stage : RenewalStage, stage.isQuiet = true → stage.inFlight = 0 := by
        intro stage hq
        cases stage <;> first | rfl | cases hq
      cases (moved_stepBackground reply : Moved cfg t _) with
      | began t' was now running counters => rw [ht] at running; cases running
      | checked t' check was now young unrenewed read counters => rw [counters, now, was]; exact le_rfl
      | proved t' check was now counters => rw [counters, now, was]; exact le_rfl
      | committed t' check e was now counters => rw [counters, now, was]; exact le_rfl
      | recorded check e was now counters => rw [counters, now, was]; exact le_rfl
      | quiet was now counters => rw [counters, hquiet _ now]; omega
    · obtain ⟨hbackground, -, hcounters, hstops⟩ :=
        (outside_perform ha fun reply hreply => hb ⟨reply, hreply⟩ : Outside t (t.perform cfg a))
      refine ⟨hstops ht, hle.trans' ?_⟩
      have hcommitted : (t.perform cfg a).counters.committed = t.counters.committed := by
        rcases hcounters with h | ⟨-, h⟩
        · rw [h]
        · rw [h]
          rfl
      change (t.perform cfg a).counters.committed.length + (t.perform cfg a).background.inFlight ≤ _
      rw [hcommitted, hbackground]
  omega

/-- Renewals follow progress. -/
structure FollowsProgress (cfg : HeartbeatIntervals) (s : Heartbeat ι) : Prop where
  consumes : Consumes s.counters.committed
  sound : ∀ r ∈ s.counters.committed, r.check.Sound cfg s.counters.progressTimes s.mono
  renewals_le : s.counters.renewals ≤ s.counters.committed.length
  committed_le : s.counters.committed.length ≤ 1 + s.counters.progressCalls.length
  nothing_lost : ∀ t reply, s.background = .checking t → s.age ≤ cfg.maxNoProgressSeconds →
    consumed s.counters.committed < 1 + s.counters.progressCalls.length →
    ∃ check, (s.stepBackground cfg reply).background = .proving t check ∧
      check.progressSequence = 1 + s.counters.progressCalls.length
  failed : s.Failed → ∀ inputs s', (heartbeatMachine ι cfg).Steps s inputs s' →
    s'.counters.committed.length ≤ s.counters.committed.length + s.background.inFlight

/-- Every renewal consumes progress that no other renewal has consumed and that was in time when
the renewal was checked; what is reported meanwhile is left for the next one; and after a failure
no attempt renews but the one in flight. -/
theorem renewals_follow_progress (h : (heartbeatMachine ι cfg).Reachable s) :
    s.FollowsProgress cfg := by
  have hinv := inv_of_reachable h
  have hcalls : s.counters.progressSequence = 1 + s.counters.progressCalls.length := by
    rw [hinv.sequence_eq, ProgressCounters.progressTimes, List.length_cons, List.length_reverse,
      Nat.add_comm]
  refine ⟨hinv.consumes, hinv.sound, ?_, ?_, ?_, fun hf inputs s' hs => committed_of_stop hs h hf.2⟩
  · cases hs : s.background with
    | recording check claimExpiresAt =>
      have hstage := hinv.stage
      rw [hs] at hstage
      have := hstage.2
      omega
    | _ => exact (hinv.recorded (by simp [hs])).2.le
  · have hle := length_le_consumed hinv.consumes
    have := hinv.consumed_le
    omega
  · intro t reply hs young hleft
    have hrecorded := (hinv.recorded (by simp [hs])).1
    refine ⟨⟨s.counters.renewedProgressSequence, s.counters.progressSequence,
      s.counters.lastProgressMono, s.mono⟩, ?_, hcalls⟩
    rw [stepBackground, hs]
    dsimp only
    rw [checkProgress, if_neg (not_lt.2 young), if_neg (by omega)]
    rfl

end Heartbeat

instance heartbeatEnabledDecidable (ι : Type*) [DecidableEq ι] (cfg : HeartbeatIntervals)
    (s : Heartbeat ι) (a : HeartbeatInput ι) : Decidable ((heartbeatMachine ι cfg).enabled s a) :=
  inferInstanceAs (Decidable (s.Enabled a))

/-- The intervals of a heartbeat whose renewals are nearly as rare as progress has to be. -/
def rareRenewals : HeartbeatIntervals where
  leaseSeconds := 900
  renewIntervalSeconds := 298
  maxNoProgressSeconds := 300
  renewalBusyTimeoutSeconds := 5
  renewalRetrySeconds := 1
  maxRenewalContentionSeconds := 120

def claimedHeartbeat : Heartbeat Unit where
  mono := 0
  clock := 0
  counters := { lastProgressMono := 0, claimExpiresAt := 900, claimedAt := 0 }

/-- The claim is checked after 298 seconds; the foreground finds it stalled after 301, while the
renewal waits for the lock of the database. -/
def stallingInputs : List (HeartbeatInput Unit) :=
  [.background (.current true), .background (.current true), .tick 298 298,
    .background (.current true), .background (.current true), .background (.current true),
    .background (.current true), .background (.current true), .background (.current true),
    .tick 3 301, .call () .assertActive, .foreground () (.current true),
    .foreground () (.current true), .foreground () (.current true), .foreground () (.current true)]

def stalledHeartbeat : Heartbeat Unit :=
  (heartbeatMachine Unit rareRenewals).run claimedHeartbeat stallingInputs

theorem stalledHeartbeat_reachable :
    (heartbeatMachine Unit rareRenewals).Reachable stalledHeartbeat :=
  Machine.reachable_run stallingInputs ⟨0, 0, 900, false, rfl⟩ (by decide +kernel)

theorem renewals_follow_progress_stalled : stalledHeartbeat.FollowsProgress rareRenewals :=
  Heartbeat.renewals_follow_progress stalledHeartbeat_reachable

/-- The renewal in flight is committed after the failure, 302 seconds after the last progress. -/
theorem stalled_claim_is_renewed :
    ∃ s s' inputs, (heartbeatMachine Unit rareRenewals).Reachable s ∧ s.Failed ∧
      (heartbeatMachine Unit rareRenewals).Steps s inputs s' ∧
      ∃ r ∈ s'.counters.committed, r ∉ s.counters.committed ∧
        rareRenewals.maxNoProgressSeconds < r.committedAt - r.lastProgressMono := by
  refine ⟨stalledHeartbeat, _, [.tick 1 302, .background (.renewed 1202)],
    stalledHeartbeat_reachable, by decide +kernel,
    Machine.Runs.steps (by decide +kernel), ⟨⟨0, 1, 0, 298⟩, 0, 302⟩, ?_, ?_, ?_⟩
  all_goals decide +kernel

end ResearchLab.FarmTasks
