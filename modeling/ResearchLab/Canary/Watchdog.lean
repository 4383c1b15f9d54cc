import Mathlib

/-!
# Freshness watchdogs

A lane of the canary monitor is fresh while its last complete sample is not older than its limit.
A failure is latched, and the watchdog refuses a time before the last one that it has seen.
-/
namespace ResearchLab.Canary

/-- The names of `CANONICAL_MONITORING_LANES`. -/
inductive Lane
  | fastSafety
  | authorityState
  | runtimeStatus
  | listenerInventory
  | deepDatabase
  | productProgress
  deriving DecidableEq

def Lane.maxSampleGapSeconds : Lane → ℚ
  | .fastSafety => 15
  | .authorityState => 30
  | .runtimeStatus => 30
  | .listenerInventory => 90
  | .deepDatabase => 300
  | .productProgress => 90

/-- `CanaryWatchdogAssessment`. -/
structure Assessment where
  failureReason : Option String
  alertCount : ℕ
  lastFastSampleAt : Option ℚ
  fastSampleAgeSeconds : ℚ
  deriving DecidableEq

/-- `CanaryFastSampleWatchdog`. -/
structure Watchdog where
  startedAt : ℚ
  maxFastSampleGapSeconds : ℚ
  lastFastSampleAt : Option ℚ := none
  failureReason : Option String := none
  alertCount : ℕ := 0
  lastNow : ℚ
  deriving DecidableEq

namespace Watchdog

variable (w : Watchdog) (now : ℚ)

def new (startedAt maxFastSampleGapSeconds : ℚ) : Watchdog where
  startedAt
  maxFastSampleGapSeconds
  lastNow := startedAt

/-- The time that the age of a lane is counted from. -/
def basis : ℚ := w.lastFastSampleAt.getD w.startedAt

/-- `_check_time`. -/
def checkTime : Except String Watchdog :=
  if now < w.lastNow then .error "monotonic time moved backwards"
  else .ok { w with lastNow := now }

def Overdue : Prop := w.maxFastSampleGapSeconds < now - w.basis

instance decidableOverdue : Decidable (w.Overdue now) := inferInstanceAs (Decidable (_ < _))

/-- `_evaluate_freshness`. -/
def evaluateFreshness : Watchdog :=
  if w.failureReason = none ∧ w.Overdue now then
    { w with
      failureReason :=
        if w.lastFastSampleAt = none then some "monitor_fast_sample_initial_deadline_exhausted"
        else some "monitor_fast_sample_freshness_lost"
      alertCount := 1 }
  else w

/-- `_snapshot`. -/
def snapshot : Assessment where
  failureReason := w.failureReason
  alertCount := w.alertCount
  lastFastSampleAt := w.lastFastSampleAt
  fastSampleAgeSeconds := now - w.basis

def assess : Except String (Watchdog × Assessment) :=
  (w.checkTime now).map fun checked =>
    (checked.evaluateFreshness now, (checked.evaluateFreshness now).snapshot now)

def recordFastSample : Except String (Watchdog × Assessment) :=
  (w.checkTime now).map fun checked =>
    let evaluated := checked.evaluateFreshness now
    let recorded :=
      if evaluated.failureReason = none then { evaluated with lastFastSampleAt := some now }
      else evaluated
    (recorded, recorded.snapshot now)

variable {w now}

theorem evaluateFreshness_of_failed (h : w.failureReason ≠ none) : w.evaluateFreshness now = w :=
  if_neg fun hn => h hn.1

theorem evaluateFreshness_of_fresh (h : ¬w.Overdue now) : w.evaluateFreshness now = w :=
  if_neg fun ho => h ho.2

@[simp] theorem evaluateFreshness_lastNow : (w.evaluateFreshness now).lastNow = w.lastNow := by
  unfold evaluateFreshness
  split_ifs <;> rfl

/-- Being evaluated does not refresh a lane. -/
@[simp] theorem evaluateFreshness_overdue : (w.evaluateFreshness now).Overdue now ↔ w.Overdue now := by
  unfold evaluateFreshness
  split_ifs <;> rfl

/-- An overdue lane fails. -/
theorem failed_of_overdue (h : w.Overdue now) : (w.evaluateFreshness now).failureReason ≠ none := by
  unfold evaluateFreshness
  split_ifs with hfailed hfirst
  · simp
  · simp
  · exact fun hn => hfailed ⟨hn, h⟩

/-- What an assessment at a time that is not past leaves. -/
theorem assess_ok (h : w.lastNow ≤ now) :
    w.assess now = .ok (({ w with lastNow := now } : Watchdog).evaluateFreshness now,
      (({ w with lastNow := now } : Watchdog).evaluateFreshness now).snapshot now) := by
  rw [assess, checkTime, if_neg (not_lt.2 h)]
  rfl

theorem recordFastSample_ok (h : w.lastNow ≤ now) :
    ∃ w' a, w.recordFastSample now = .ok (w', a) ∧ a.failureReason = w'.failureReason ∧
      (w.failureReason ≠ none → w'.failureReason ≠ none) := by
  rw [recordFastSample, checkTime, if_neg (not_lt.2 h)]
  refine ⟨_, _, rfl, rfl, fun hfailed => ?_⟩
  rw [evaluateFreshness_of_failed (w := { w with lastNow := now }) hfailed]
  simp [hfailed]

/-- A failed watchdog stays failed. -/
theorem failed_of_assess {w' : Watchdog} {a : Assessment} (h : w.assess now = .ok (w', a))
    (hfailed : w.failureReason ≠ none) : w'.failureReason ≠ none := by
  rw [assess, checkTime] at h
  split_ifs at h with hback
  · cases h
  · rw [Except.map, evaluateFreshness_of_failed (w := { w with lastNow := now }) hfailed] at h
    obtain ⟨rfl, -⟩ := Prod.mk.inj (Except.ok.inj h)
    exact hfailed

end Watchdog
end ResearchLab.Canary
