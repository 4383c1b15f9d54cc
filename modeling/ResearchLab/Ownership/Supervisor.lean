import Mathlib
import ResearchLab.Foundation.Machine

/-!
# The supervisor of the process lease

`_supervisor_main`: a child process renews the lease of the farm and fails closed when the owner
stops making progress, when a renewal fails, or when contention exhausts the renewal budget. One
input is one turn of its loop. Both clocks advance by the waits of the loop and by the time that a
contended renewal blocks, and by nothing else.
-/
namespace ResearchLab.Ownership

open Foundation

/-! ## The loop -/

/-- The intervals that `ProcessLeaseSupervisor.__init__` accepts. -/
structure SupervisorIntervals where
  leaseSeconds : ℚ := 90
  renewIntervalSeconds : ℚ := 30
  renewalBusyTimeoutSeconds : ℚ := 2
  renewalRetrySeconds : ℚ := 1 / 4
  maxTransientSeconds : ℚ := 30
  leaseSafetyMarginSeconds : ℚ := 5
  maxNoProgressSeconds : ℚ := 300
  lease_pos : 0 < leaseSeconds := by norm_num
  renew_pos : 0 < renewIntervalSeconds := by norm_num
  busy_pos : 0 < renewalBusyTimeoutSeconds := by norm_num
  retry_pos : 0 < renewalRetrySeconds := by norm_num
  transient_pos : 0 < maxTransientSeconds := by norm_num
  margin_pos : 0 < leaseSafetyMarginSeconds := by norm_num
  progress_pos : 0 < maxNoProgressSeconds := by norm_num
  renew_lt_lease : renewIntervalSeconds < leaseSeconds := by norm_num
  budget_lt_lease : renewIntervalSeconds + maxTransientSeconds + leaseSafetyMarginSeconds <
    leaseSeconds := by norm_num

/-- `stop_event.wait(0.05)`. -/
def pollSeconds : ℚ := 1 / 20

theorem pollSeconds_pos : 0 < pollSeconds := by norm_num [pollSeconds]

inductive SupervisorFailure
  | processLeaseProgressStalled
  | processLeaseRenewalBudgetExceeded
  | renewalError
  deriving DecidableEq

/-- How `renew_supervised` ends; a retryable error may come after blocking on the database. -/
inductive RenewalOutcome
  | renewed
  | retryable (blocked : ℚ)
  | fatal
  deriving DecidableEq

/-- A call of `renew_supervised`: the wall clock, the lease that it is to extend, and the age of the
progress that this turn has read. -/
structure RenewalAttempt where
  startedAt : ℚ
  leaseExpiresAt : ℚ
  progressAge : ℚ
  deriving DecidableEq

/-- The variables of the loop, and the attempts so far, the latest first. -/
structure Supervisor where
  wall : ℚ
  mono : ℚ
  leaseExpiresAt : ℚ
  nextRenewal : ℚ
  transientStarted : Option ℚ := none
  renewals : ℕ := 0
  transientEvents : ℕ := 0
  failure : Option SupervisorFailure := none
  stopped : Bool := false
  attempts : List RenewalAttempt := []
  deriving DecidableEq

/-- The stop event is set, or the loop takes a turn that reads `progress_mono`. -/
inductive SupervisorInput
  | stop
  | turn (progressMono : ℚ) (outcome : RenewalOutcome)
  deriving DecidableEq

namespace Supervisor

variable (c : SupervisorIntervals) (s : Supervisor)

def wait (d : ℚ) : Supervisor := { s with wall := s.wall + d, mono := s.mono + d }

def fail (failure : SupervisorFailure) : Supervisor := { s with failure := some failure }

/-- The exception handler of `renew_supervised` for a retryable error; `nowMono` was read before the
call. -/
def retry (nowMono : ℚ) : Supervisor :=
  let transientStarted := s.transientStarted.getD nowMono
  let transientAge := max 0 (nowMono - transientStarted)
  let nextAttemptLatest := s.wall + c.renewalRetrySeconds + c.renewalBusyTimeoutSeconds +
    c.leaseSafetyMarginSeconds
  let s := { s with
    transientStarted := some transientStarted
    transientEvents := s.transientEvents + 1 }
  if c.maxTransientSeconds ≤ transientAge ∨ s.leaseExpiresAt ≤ nextAttemptLatest then
    s.fail .processLeaseRenewalBudgetExceeded
  else
    let s := s.wait c.renewalRetrySeconds
    { s with nextRenewal := s.mono }

/-- The call of `renew_supervised` and what follows it in the turn. -/
def renew (progressAge : ℚ) (outcome : RenewalOutcome) : Supervisor :=
  let s := { s with attempts := ⟨s.wall, s.leaseExpiresAt, progressAge⟩ :: s.attempts }
  match outcome with
  | .fatal => s.fail .renewalError
  | .retryable blocked => (s.wait blocked).retry c s.mono
  | .renewed =>
    { s with
      leaseExpiresAt := s.wall + c.leaseSeconds
      renewals := s.renewals + 1
      transientStarted := none
      nextRenewal := s.mono + c.renewIntervalSeconds }

/-- The body of the loop. -/
def turn (progressMono : ℚ) (outcome : RenewalOutcome) : Supervisor :=
  let progressAge := max 0 (s.mono - progressMono)
  if c.maxNoProgressSeconds < progressAge then s.fail .processLeaseProgressStalled
  else if s.mono < s.nextRenewal then s
  else s.renew c progressAge outcome

def step : SupervisorInput → Supervisor
  | .stop => { s with stopped := true }
  | .turn progressMono outcome => (s.wait pollSeconds).turn c progressMono outcome

/-- The loop is running. -/
def Running : Prop := s.failure = none ∧ s.stopped = false

instance runningDecidable : Decidable s.Running := inferInstanceAs (Decidable (_ ∧ _))

/-- SQLite gives up on a lock after the busy timeout. -/
def Enabled : SupervisorInput → Prop
  | .stop => s.Running
  | .turn _ (.retryable blocked) =>
      s.Running ∧ 0 ≤ blocked ∧ blocked ≤ c.renewalBusyTimeoutSeconds
  | .turn _ _ => s.Running

instance enabledDecidable : ∀ a, Decidable (s.Enabled c a)
  | .stop => inferInstanceAs (Decidable s.Running)
  | .turn _ .renewed => inferInstanceAs (Decidable s.Running)
  | .turn _ .fatal => inferInstanceAs (Decidable s.Running)
  | .turn _ (.retryable _) => inferInstanceAs (Decidable (_ ∧ _))

/-- The loop begins with a lease acquired just now. -/
def Initial : Prop :=
  ∃ wall mono, s = { wall, mono, leaseExpiresAt := wall + c.leaseSeconds, nextRenewal := mono }

end Supervisor

def supervisorMachine (c : SupervisorIntervals) : Machine Supervisor SupervisorInput where
  init := Supervisor.Initial c
  enabled := Supervisor.Enabled c
  step := fun s a => s.step c a

instance supervisorMachineDecidable (c : SupervisorIntervals) (s : Supervisor)
    (a : SupervisorInput) : Decidable ((supervisorMachine c).enabled s a) :=
  inferInstanceAs (Decidable (s.Enabled c a))

/-- The supervisor gives up before the lease does: every attempt starts at least the safety margin
before the lease expires and with progress that is not too old, and so does a failure by the
renewal budget come. -/
structure Supervisor.GivesUpInTime (c : SupervisorIntervals) (s : Supervisor) : Prop where
  attempts_timely : ∀ a ∈ s.attempts, a.startedAt + c.leaseSafetyMarginSeconds ≤ a.leaseExpiresAt
  attempts_progressing : ∀ a ∈ s.attempts, a.progressAge ≤ c.maxNoProgressSeconds
  failure_timely : s.failure = some .processLeaseRenewalBudgetExceeded →
    s.wall + c.leaseSafetyMarginSeconds ≤ s.leaseExpiresAt

/-! ## How late an attempt can start -/

namespace SupervisorIntervals

variable (c : SupervisorIntervals)

/-- The number of turns from a renewal to the next attempt. -/
def renewalTurns : ℕ := ⌈c.renewIntervalSeconds / pollSeconds⌉₊

/-- What is left of the lease at the first attempt of the loop, and at the first attempt after a
renewal. -/
def gaps : List ℚ :=
  [c.leaseSeconds - pollSeconds, c.leaseSeconds - c.renewalTurns * pollSeconds]

/-- The time from the end of a contended attempt to the next attempt. -/
def retryPause : ℚ := c.renewalRetrySeconds + pollSeconds

/-- How long after the first of a sequence of contended attempts another can start, when `gap` is
left of the lease at the first. -/
inductive Delay (gap : ℚ) : ℚ → Prop
  | first : Delay gap 0
  | retry {x b : ℚ} (prior : Delay gap x) (nonneg : 0 ≤ b) (le : b ≤ c.renewalBusyTimeoutSeconds)
      (young : x < c.maxTransientSeconds)
      (fits : x + b + c.renewalRetrySeconds + c.renewalBusyTimeoutSeconds +
        c.leaseSafetyMarginSeconds < gap) :
      Delay gap (x + b + c.retryPause)

/-- The intervals leave room for a blocked first attempt, and no `k + 1` contended attempts end
within the last pause of the poll before the budget check fails: then the attempt after them would
still be made and could block beyond the margin. -/
def BudgetFits : Prop :=
  ∀ gap ∈ c.gaps, c.renewalBusyTimeoutSeconds + c.leaseSafetyMarginSeconds ≤ gap ∧
    ∀ k : ℕ, k * c.retryPause < c.maxTransientSeconds →
      let limit := gap - c.leaseSafetyMarginSeconds - c.renewalBusyTimeoutSeconds -
        c.renewalRetrySeconds
      k * c.retryPause < limit →
      limit - pollSeconds < k * c.retryPause + (k + 1) * c.renewalBusyTimeoutSeconds →
      c.maxTransientSeconds + c.renewalBusyTimeoutSeconds ≤ limit - pollSeconds

variable {c} {gap x : ℚ}

theorem retryPause_pos : 0 < c.retryPause := add_pos c.retry_pos pollSeconds_pos

theorem Delay.nonneg (h : c.Delay gap x) : 0 ≤ x := by
  induction h with
  | first => exact le_rfl
  | retry _ hb _ _ _ ih => linarith [c.retryPause_pos]

/-- The delay after `k + 1` contended attempts: `y` is when the last of them ended. -/
theorem Delay.bounds (h : c.Delay gap x) :
    x = 0 ∨ ∃ (k : ℕ) (y : ℚ), x = y + c.retryPause ∧ k * c.retryPause ≤ y ∧
      y ≤ k * c.retryPause + (k + 1) * c.renewalBusyTimeoutSeconds ∧
      k * c.retryPause < c.maxTransientSeconds ∧
      y < c.maxTransientSeconds + c.renewalBusyTimeoutSeconds ∧
      y + c.renewalRetrySeconds + c.renewalBusyTimeoutSeconds + c.leaseSafetyMarginSeconds <
        gap := by
  induction h with
  | first => exact .inl rfl
  | @retry x b prior hb hle hyoung hfits ih =>
    right
    rcases ih with rfl | ⟨k, y, rfl, hky, hy, -, -, -⟩
    · refine ⟨0, 0 + b, rfl, ?_, ?_, ?_, by linarith, hfits⟩
      · simpa using hb
      · simpa using hle
      · simpa using c.transient_pos
    · refine ⟨k + 1, y + c.retryPause + b, rfl, ?_, ?_, ?_, by linarith, hfits⟩
      · push_cast
        linarith
      · push_cast
        linarith
      · push_cast
        linarith

theorem Delay.fits (hc : c.BudgetFits) (hgap : gap ∈ c.gaps) (h : c.Delay gap x) :
    x + c.renewalBusyTimeoutSeconds + c.leaseSafetyMarginSeconds ≤ gap := by
  obtain ⟨hfirst, hlater⟩ := hc gap hgap
  rcases h.bounds with rfl | ⟨k, y, rfl, hky, hy, hk, hyT, hfits⟩
  · linarith
  · have hk' := hlater k hk (by linarith)
    simp only [retryPause] at *
    by_contra hlate
    linarith [hk' (by linarith)]

/-- Attempts that are all blocked equally long. -/
theorem delay_multiple {b : ℚ} (hb : 0 ≤ b) (hle : b ≤ c.renewalBusyTimeoutSeconds) (k : ℕ)
    (hyoung : k * (b + c.retryPause) < c.maxTransientSeconds)
    (hfits : k * (b + c.retryPause) + c.renewalRetrySeconds + c.renewalBusyTimeoutSeconds +
      c.leaseSafetyMarginSeconds < gap) :
    c.Delay gap (k * (b + c.retryPause)) := by
  have hpause := c.retryPause_pos
  induction k with
  | zero => simpa using Delay.first
  | succ k ih =>
    push_cast at hyoung hfits ⊢
    have hprior := ih (by linarith) (by linarith)
    have := hprior.retry hb hle (by linarith) (by linarith)
    convert this using 1
    ring

/-- Every end of the last attempt within the bounds is possible: all attempts but the last are
blocked equally long, and the last as long as may be. -/
theorem delay_of_between {y : ℚ} {k : ℕ} (hky : k * c.retryPause ≤ y)
    (hy : y ≤ k * c.retryPause + (k + 1) * c.renewalBusyTimeoutSeconds)
    (hk : k * c.retryPause < c.maxTransientSeconds)
    (hyT : y < c.maxTransientSeconds + c.renewalBusyTimeoutSeconds)
    (hfits : y + c.renewalRetrySeconds + c.renewalBusyTimeoutSeconds +
      c.leaseSafetyMarginSeconds < gap) :
    c.Delay gap (y + c.retryPause) := by
  have hbusy := c.busy_pos
  obtain ⟨x, hx, hxy, hyx, hxT⟩ : ∃ x, c.Delay gap x ∧ x ≤ y ∧ y ≤ x + c.renewalBusyTimeoutSeconds ∧
      x < c.maxTransientSeconds := by
    set x := max (k * c.retryPause) (y - c.renewalBusyTimeoutSeconds) with hx
    have hxy : x ≤ y := max_le hky (by linarith)
    have hyx : y ≤ x + c.renewalBusyTimeoutSeconds := by
      linarith [le_max_right (k * c.retryPause) (y - c.renewalBusyTimeoutSeconds)]
    have hxT : x < c.maxTransientSeconds := max_lt hk (by linarith)
    refine ⟨x, ?_, hxy, hyx, hxT⟩
    rcases Nat.eq_zero_or_pos k with rfl | hpos
    · have : x = 0 := by
        rw [hx]
        simp only [Nat.cast_zero, zero_mul, zero_add, one_mul] at hy ⊢
        exact max_eq_left (by linarith)
      exact this ▸ Delay.first
    · have hk0 : (0 : ℚ) < k := by exact_mod_cast hpos
      have heq : x = k * ((x - k * c.retryPause) / k + c.retryPause) := by field_simp; ring
      have hle : x - k * c.retryPause ≤ k * c.renewalBusyTimeoutSeconds := by
        have : x ≤ k * c.retryPause + k * c.renewalBusyTimeoutSeconds :=
          max_le (by nlinarith) (by linarith)
        linarith
      rw [heq]
      refine delay_multiple ?_ ?_ k (heq ▸ hxT) (heq ▸ by linarith)
      · exact div_nonneg (sub_nonneg.2 (le_max_left _ _)) hk0.le
      · rw [div_le_iff₀ hk0]
        linarith
  have := hx.retry (sub_nonneg.2 hxy) (by linarith) hxT (by linarith)
  convert this using 1
  ring

/-- The intervals fit exactly when no attempt can start too late for the longest block. -/
theorem budgetFits_iff : c.BudgetFits ↔ ∀ gap ∈ c.gaps, ∀ x, c.Delay gap x →
    x + c.renewalBusyTimeoutSeconds + c.leaseSafetyMarginSeconds ≤ gap := by
  refine ⟨fun h gap hgap x hx => hx.fits h hgap, fun h gap hgap => ⟨?_, ?_⟩⟩
  · linarith [h gap hgap 0 .first]
  · intro k hk limit hlimit hlast
    by_contra hlate
    have hbusy := c.busy_pos
    have hpoll := pollSeconds_pos
    -- an end strictly between both bounds
    obtain ⟨y, hy₁, hy₂⟩ : ∃ y, max (k * c.retryPause) (limit - pollSeconds) < y ∧
        y < min limit (min (c.maxTransientSeconds + c.renewalBusyTimeoutSeconds)
          (k * c.retryPause + (k + 1) * c.renewalBusyTimeoutSeconds)) := by
      refine exists_between (max_lt (lt_min hlimit (lt_min ?_ ?_)) (lt_min ?_ (lt_min ?_ hlast)))
      · linarith
      · have : (0 : ℚ) ≤ k := Nat.cast_nonneg k
        nlinarith
      · linarith
      · exact not_le.1 hlate
    obtain ⟨hky, hlim⟩ := max_lt_iff.1 hy₁
    obtain ⟨hyl, hyT, hyk⟩ := by simpa only [lt_min_iff] using hy₂
    have hdelay := @delay_of_between c gap _ _ hky.le hyk.le hk hyT (by linarith)
    have := h gap hgap _ hdelay
    simp only [retryPause] at this
    linarith

end SupervisorIntervals

theorem SupervisorIntervals.renewalTurns_pos (c : SupervisorIntervals) : 0 < c.renewalTurns :=
  Nat.ceil_pos.2 (div_pos c.renew_pos pollSeconds_pos)

theorem SupervisorIntervals.renew_le_turns (c : SupervisorIntervals) :
    c.renewIntervalSeconds ≤ c.renewalTurns * pollSeconds :=
  (div_le_iff₀ pollSeconds_pos).1 (Nat.le_ceil _)

theorem SupervisorIntervals.turns_lt_renew (c : SupervisorIntervals) {r : ℕ}
    (hr : r + 1 = c.renewalTurns) : r * pollSeconds < c.renewIntervalSeconds := by
  rw [← lt_div_iff₀ pollSeconds_pos]
  exact Nat.lt_ceil.1 (show r < c.renewalTurns by omega)

/-! ## The attempts of a run -/

namespace Supervisor

variable {c : SupervisorIntervals} {s : Supervisor} {gap x : ℚ} {r : ℕ}

/-- After `r` idle turns the next turn makes an attempt, `x` seconds after the first attempt of its
sequence, at which `gap` was left of the lease. -/
structure Due (s : Supervisor) (gap x : ℚ) (r : ℕ) : Prop where
  remaining : s.leaseExpiresAt - s.wall = gap - x + (r + 1) * pollSeconds
  due : s.nextRenewal ≤ s.mono + (r + 1) * pollSeconds
  idle : r = 0 ∨ s.mono + r * pollSeconds < s.nextRenewal
  sequence : s.transientStarted.elim (x = 0) fun t => t + x = s.mono + (r + 1) * pollSeconds

theorem Initial.due (h : s.Initial c) : s.Due (c.leaseSeconds - pollSeconds) 0 0 := by
  obtain ⟨wall, mono, rfl⟩ := h
  refine ⟨?_, ?_, .inl rfl, rfl⟩
  · simp
  · simpa using pollSeconds_pos.le

theorem Due.renewed (progressAge : ℚ) (hr : r + 1 = c.renewalTurns) :
    (s.renew c progressAge .renewed).Due (c.leaseSeconds - c.renewalTurns * pollSeconds) 0 r := by
  have hn : (c.renewalTurns : ℚ) = r + 1 := by exact_mod_cast hr.symm
  have hle := c.renew_le_turns
  have hlt := c.turns_lt_renew hr
  refine ⟨?_, ?_, .inr ?_, rfl⟩
  · simp only [renew, hn]
    ring
  · simpa only [renew, ← hn, add_le_add_iff_left] using hle
  · simpa only [renew, add_lt_add_iff_left] using hlt

theorem Due.waited (h : s.Due gap x (r + 1)) : (s.wait pollSeconds).Due gap x r := by
  have hlt := h.idle.resolve_left (Nat.succ_ne_zero r)
  have hremaining := h.remaining
  have hdue := h.due
  have hsequence := h.sequence
  push_cast at *
  refine ⟨?_, ?_, ?_, ?_⟩
  · simp only [wait]
    linarith
  · simp only [wait]
    linarith
  · rcases Nat.eq_zero_or_pos r with rfl | hr
    · exact .inl rfl
    · right
      simp only [wait]
      linarith
  · simp only [wait]
    cases ht : s.transientStarted with
    | none => simpa [ht] using hsequence
    | some t =>
      simp only [ht, Option.elim_some] at hsequence ⊢
      linarith

/-- The handler of a retryable error, when the attempt was made `x` seconds after the first of its
sequence and then blocked for `b` seconds. -/
theorem Due.retry_eq (h : s.Due gap x 0) (hx : 0 ≤ x) (progressAge b : ℚ) :
    (s.wait pollSeconds).renew c progressAge (.retryable b) =
      let a := s.wait pollSeconds
      let e := { a.wait b with
        attempts := ⟨a.wall, a.leaseExpiresAt, progressAge⟩ :: a.attempts
        transientStarted := some (a.mono - x)
        transientEvents := a.transientEvents + 1 }
      if c.maxTransientSeconds ≤ x ∨ gap ≤ x + b + c.renewalRetrySeconds +
          c.renewalBusyTimeoutSeconds + c.leaseSafetyMarginSeconds then
        e.fail .processLeaseRenewalBudgetExceeded
      else { e.wait c.renewalRetrySeconds with nextRenewal := (e.wait c.renewalRetrySeconds).mono } := by
  have hstarted : s.transientStarted.getD (s.mono + pollSeconds) = s.mono + pollSeconds - x := by
    have := h.sequence
    cases ht : s.transientStarted with
    | none => simp_all
    | some t =>
      simp only [ht, Option.elim_some, CharP.cast_eq_zero, zero_add, one_mul] at this
      simp only [Option.getD_some]
      linarith
  have hlate : s.leaseExpiresAt ≤ s.wall + pollSeconds + b + c.renewalRetrySeconds +
      c.renewalBusyTimeoutSeconds + c.leaseSafetyMarginSeconds ↔
      gap ≤ x + b + c.renewalRetrySeconds + c.renewalBusyTimeoutSeconds +
        c.leaseSafetyMarginSeconds := by
    have := h.remaining
    simp only [CharP.cast_eq_zero, zero_add, one_mul] at this
    constructor <;> intro <;> linarith
  simp only [renew, retry, wait, hstarted, sub_sub_cancel, max_eq_right hx, hlate]

theorem Due.retried (h : s.Due gap x 0) (hx : 0 ≤ x) (progressAge : ℚ) {b : ℚ}
    (hyoung : x < c.maxTransientSeconds)
    (hfits : x + b + c.renewalRetrySeconds + c.renewalBusyTimeoutSeconds +
      c.leaseSafetyMarginSeconds < gap) :
    ((s.wait pollSeconds).renew c progressAge (.retryable b)).Due gap (x + b + c.retryPause) 0 := by
  rw [h.retry_eq hx, if_neg (not_or.2 ⟨not_le.2 hyoung, not_le.2 hfits⟩)]
  have hremaining := h.remaining
  simp only [CharP.cast_eq_zero, zero_add, one_mul] at hremaining
  refine ⟨?_, ?_, .inl rfl, ?_⟩
  · simp only [wait, SupervisorIntervals.retryPause, CharP.cast_eq_zero]
    linarith
  · simpa [wait] using pollSeconds_pos.le
  · simp only [wait, Option.elim_some, SupervisorIntervals.retryPause, CharP.cast_eq_zero]
    ring

/-- A turn that waits for the next renewal. -/
theorem step_of_lt {progressMono : ℚ} {outcome : RenewalOutcome}
    (hage : max 0 (s.mono + pollSeconds - progressMono) ≤ c.maxNoProgressSeconds)
    (hlt : s.mono + pollSeconds < s.nextRenewal) :
    s.step c (.turn progressMono outcome) = s.wait pollSeconds :=
  (if_neg (not_lt.2 hage)).trans (if_pos hlt)

/-- A turn that makes an attempt. -/
theorem step_of_le {progressMono : ℚ} {outcome : RenewalOutcome}
    (hage : max 0 (s.mono + pollSeconds - progressMono) ≤ c.maxNoProgressSeconds)
    (hle : s.nextRenewal ≤ s.mono + pollSeconds) :
    s.step c (.turn progressMono outcome) =
      (s.wait pollSeconds).renew c (max 0 (s.mono + pollSeconds - progressMono)) outcome :=
  (if_neg (not_lt.2 hage)).trans (if_neg (not_lt.2 hle))

theorem step_of_stalled {progressMono : ℚ} {outcome : RenewalOutcome}
    (hage : c.maxNoProgressSeconds < max 0 (s.mono + pollSeconds - progressMono)) :
    s.step c (.turn progressMono outcome) =
      (s.wait pollSeconds).fail .processLeaseProgressStalled :=
  if_pos hage

theorem Due.lt (h : s.Due gap x (r + 1)) : s.mono + pollSeconds < s.nextRenewal := by
  have hlt := h.idle.resolve_left (Nat.succ_ne_zero r)
  have : pollSeconds ≤ ((r + 1 : ℕ) : ℚ) * pollSeconds :=
    le_mul_of_one_le_left pollSeconds_pos.le (by exact_mod_cast Nat.succ_pos r)
  linarith

theorem Due.le (h : s.Due gap x 0) : s.nextRenewal ≤ s.mono + pollSeconds := by
  simpa using h.due

/-- The supervisor has given up in time if it has, and knows when its next attempt is due. -/
structure InTime (c : SupervisorIntervals) (s : Supervisor) : Prop where
  gives : s.GivesUpInTime c
  due : s.Running → ∃ gap ∈ c.gaps, ∃ x r, c.Delay gap x ∧ s.Due gap x r

theorem Initial.inTime (h : s.Initial c) : s.InTime c := by
  refine ⟨?_, fun _ => ⟨_, by simp [SupervisorIntervals.gaps], 0, 0, .first, h.due⟩⟩
  obtain ⟨wall, mono, rfl⟩ := h
  exact ⟨by simp, by simp, by simp⟩

/-- An attempt that starts early enough is followed by a state in time, whatever comes of it. -/
theorem InTime.renew (hs : s.InTime c) (hrun : s.Running) (hgap : gap ∈ c.gaps)
    (hx : c.Delay gap x) (hdue : s.Due gap x 0)
    (hfits : x + c.renewalBusyTimeoutSeconds + c.leaseSafetyMarginSeconds ≤ gap) {progressAge : ℚ}
    (hage : progressAge ≤ c.maxNoProgressSeconds) {outcome : RenewalOutcome}
    (hblocked : ∀ b, outcome = .retryable b → 0 ≤ b ∧ b ≤ c.renewalBusyTimeoutSeconds) :
    ((s.wait pollSeconds).renew c progressAge outcome).InTime c := by
  have hremaining := hdue.remaining
  simp only [CharP.cast_eq_zero, zero_add, one_mul] at hremaining
  have hbusy := c.busy_pos
  have htimely : ∀ a ∈ ⟨s.wall + pollSeconds, s.leaseExpiresAt, progressAge⟩ :: s.attempts,
      a.startedAt + c.leaseSafetyMarginSeconds ≤ a.leaseExpiresAt ∧
        a.progressAge ≤ c.maxNoProgressSeconds := by
    intro a ha
    rcases List.mem_cons.1 ha with rfl | ha
    · exact ⟨by dsimp only; linarith, hage⟩
    · exact ⟨hs.gives.attempts_timely a ha, hs.gives.attempts_progressing a ha⟩
  cases outcome with
  | renewed =>
    obtain ⟨r, hr⟩ := Nat.exists_eq_succ_of_ne_zero c.renewalTurns_pos.ne'
    refine ⟨⟨fun a ha => (htimely a ha).1, fun a ha => (htimely a ha).2, ?_⟩, fun _ => ?_⟩
    · intro hf
      exact absurd (hrun.1.symm.trans hf) (by simp)
    · exact ⟨_, by simp [SupervisorIntervals.gaps], 0, r, .first, Due.renewed progressAge hr.symm⟩
  | fatal =>
    refine ⟨⟨fun a ha => (htimely a ha).1, fun a ha => (htimely a ha).2, ?_⟩, fun h => ?_⟩
    · intro hf
      simp [Supervisor.renew, fail] at hf
    · simp [Supervisor.renew, Running, fail] at h
  | retryable b =>
    obtain ⟨hb, hle⟩ := hblocked b rfl
    by_cases hfail : c.maxTransientSeconds ≤ x ∨ gap ≤ x + b + c.renewalRetrySeconds +
        c.renewalBusyTimeoutSeconds + c.leaseSafetyMarginSeconds
    · rw [hdue.retry_eq hx.nonneg, if_pos hfail]
      refine ⟨⟨fun a ha => (htimely a ha).1, fun a ha => (htimely a ha).2, ?_⟩, fun h => ?_⟩
      · intro _
        simp only [fail, wait]
        linarith
      · simp [Running, fail] at h
    · obtain ⟨hyoung, hlater⟩ := not_or.1 hfail
      have hretried := hdue.retried hx.nonneg progressAge (not_le.1 hyoung) (not_le.1 hlater)
      have hdelay := hx.retry hb hle (not_le.1 hyoung) (not_le.1 hlater)
      refine ⟨?_, fun _ => ⟨gap, hgap, _, 0, hdelay, hretried⟩⟩
      rw [hdue.retry_eq hx.nonneg, if_neg hfail]
      refine ⟨fun a ha => (htimely a ha).1, fun a ha => (htimely a ha).2, ?_⟩
      intro hf
      exact absurd (hrun.1.symm.trans hf) (by simp)

/-- What one step of the loop preserves. -/
theorem InTime.step (hc : c.BudgetFits) (hs : s.InTime c) {a : SupervisorInput}
    (ha : s.Enabled c a) : (s.step c a).InTime c := by
  cases a with
  | stop =>
    refine ⟨⟨hs.gives.attempts_timely, hs.gives.attempts_progressing, hs.gives.failure_timely⟩, ?_⟩
    intro h
    simp [Supervisor.step, Running] at h
  | turn progressMono outcome =>
    have hrun : s.Running := by
      cases outcome
      · exact ha
      · exact ha.1
      · exact ha
    obtain ⟨gap, hgap, x, r, hx, hdue⟩ := hs.due hrun
    by_cases hage : c.maxNoProgressSeconds < max 0 (s.mono + pollSeconds - progressMono)
    · rw [step_of_stalled hage]
      refine ⟨⟨hs.gives.attempts_timely, hs.gives.attempts_progressing, ?_⟩, fun h => ?_⟩
      · simp [fail]
      · simp [Running, fail] at h
    rw [not_lt] at hage
    cases r with
    | zero =>
      rw [step_of_le hage hdue.le]
      refine hs.renew hrun hgap hx hdue (hx.fits hc hgap) hage ?_
      rintro b rfl
      exact ha.2
    | succ r =>
      rw [step_of_lt hage hdue.lt]
      refine ⟨⟨hs.gives.attempts_timely, hs.gives.attempts_progressing, ?_⟩, fun _ => ?_⟩
      · intro hf
        exact absurd (hrun.1.symm.trans hf) (by simp)
      · exact ⟨gap, hgap, x, r, hx, hdue.waited⟩

/-- The run lemma. -/
theorem inTime_of_reachable (hc : c.BudgetFits) (hs : (supervisorMachine c).Reachable s) :
    s.InTime c :=
  hs.invariant (P := fun s => s.InTime c) (fun _ h => Initial.inTime h)
    fun _ _ _ h ha => InTime.step hc h ha

/-! ## Runs with the longest blocks -/

/-- The loop reaches a state in which an attempt is due `x` seconds after the first one. -/
def Reaches (c : SupervisorIntervals) (gap x : ℚ) (r : ℕ) : Prop :=
  ∃ s, (supervisorMachine c).Reachable s ∧ s.Running ∧ s.Due gap x r

theorem max_zero_sub_self (a : ℚ) : max 0 (a - a) = 0 := by simp

theorem reachable_wait (hs : (supervisorMachine c).Reachable s) (hrun : s.Running)
    (hlt : s.mono + pollSeconds < s.nextRenewal) :
    (supervisorMachine c).Reachable (s.wait pollSeconds) := by
  have hnext : (supervisorMachine c).Reachable (s.step c (.turn (s.mono + pollSeconds) .renewed)) :=
    hs.step (show (supervisorMachine c).enabled s (.turn (s.mono + pollSeconds) .renewed) from hrun)
  rwa [step_of_lt (by simpa using c.progress_pos.le) hlt] at hnext

/-- An attempt in a turn right after progress. -/
theorem reachable_renew (hs : (supervisorMachine c).Reachable s)
    (hle : s.nextRenewal ≤ s.mono + pollSeconds) (outcome : RenewalOutcome)
    (ha : s.Enabled c (.turn (s.mono + pollSeconds) outcome)) :
    (supervisorMachine c).Reachable ((s.wait pollSeconds).renew c 0 outcome) := by
  have hnext : (supervisorMachine c).Reachable (s.step c (.turn (s.mono + pollSeconds) outcome)) :=
    hs.step ha
  rwa [step_of_le (by simpa using c.progress_pos.le) hle, max_zero_sub_self] at hnext

theorem Reaches.zero (h : Reaches c gap x r) : Reaches c gap x 0 := by
  induction r with
  | zero => exact h
  | succ r ih =>
    obtain ⟨s, hs, hrun, hdue⟩ := h
    exact ih ⟨s.wait pollSeconds, reachable_wait hs hrun hdue.lt, hrun, hdue.waited⟩

theorem reaches_first (c : SupervisorIntervals) :
    Reaches c (c.leaseSeconds - pollSeconds) 0 0 := by
  have hinit : Initial c
      { wall := 0, mono := 0, leaseExpiresAt := 0 + c.leaseSeconds, nextRenewal := 0 } := ⟨0, 0, rfl⟩
  exact ⟨_, .init hinit, ⟨rfl, rfl⟩, hinit.due⟩

theorem reaches_gap (hgap : gap ∈ c.gaps) : Reaches c gap 0 0 := by
  rcases List.mem_cons.1 hgap with rfl | hgap
  · exact reaches_first c
  · obtain rfl := List.mem_singleton.1 hgap
    obtain ⟨s, hs, hrun, hdue⟩ := reaches_first c
    obtain ⟨r, hr⟩ := Nat.exists_eq_succ_of_ne_zero c.renewalTurns_pos.ne'
    have hnext := reachable_renew hs hdue.le .renewed hrun
    exact Reaches.zero ⟨_, hnext, hrun, Due.renewed 0 hr.symm⟩

/-- Every delay occurs in a run. -/
theorem reaches_delay (hgap : gap ∈ c.gaps) (hx : c.Delay gap x) : Reaches c gap x 0 := by
  induction hx with
  | first => exact reaches_gap hgap
  | @retry x b prior hb hle hyoung hfits ih =>
    obtain ⟨s, hs, hrun, hdue⟩ := ih
    have hnext := reachable_renew hs hdue.le (.retryable b) ⟨hrun, hb, hle⟩
    refine ⟨_, hnext, ?_, hdue.retried prior.nonneg 0 hyoung hfits⟩
    rw [hdue.retry_eq prior.nonneg, if_neg (not_or.2 ⟨not_le.2 hyoung, not_le.2 hfits⟩)]
    exact hrun

/-- An attempt that starts too late and is blocked for the whole busy timeout exhausts the budget
within the safety margin. -/
theorem exists_late (hgap : gap ∈ c.gaps) (hx : c.Delay gap x)
    (hlate : gap < x + c.renewalBusyTimeoutSeconds + c.leaseSafetyMarginSeconds) :
    ∃ s, (supervisorMachine c).Reachable s ∧ ¬ s.GivesUpInTime c := by
  obtain ⟨s, hs, hrun, hdue⟩ := reaches_delay hgap hx
  have hbusy := c.busy_pos
  have hretry := c.retry_pos
  have hnext := reachable_renew hs hdue.le (.retryable c.renewalBusyTimeoutSeconds)
    ⟨hrun, hbusy.le, le_rfl⟩
  rw [hdue.retry_eq hx.nonneg, if_pos (.inr (by linarith))] at hnext
  refine ⟨_, hnext, fun h => ?_⟩
  have hmargin := h.failure_timely rfl
  have hremaining := hdue.remaining
  simp only [CharP.cast_eq_zero, zero_add, one_mul] at hremaining
  simp only [fail, wait] at hmargin
  linarith

end Supervisor

/-- The supervisor gives up in time in every run exactly when its intervals fit. -/
theorem givesUpInTime_iff (c : SupervisorIntervals) :
    (∀ s, (supervisorMachine c).Reachable s → s.GivesUpInTime c) ↔ c.BudgetFits := by
  constructor
  · intro h
    rw [SupervisorIntervals.budgetFits_iff]
    intro gap hgap x hx
    by_contra hlate
    obtain ⟨s, hs, hnot⟩ := Supervisor.exists_late hgap hx (not_le.1 hlate)
    exact hnot (h s hs)
  · intro hc s hs
    exact (Supervisor.inTime_of_reachable hc hs).gives

/-- A renewal at 0.05 s, nineteen idle turns, and an attempt at 1.05 s that blocks for ten of the
eleven seconds that are left of the lease. -/
def blockedTurns : List SupervisorInput :=
  List.replicate 20 (.turn 1 .renewed) ++ [.turn 1 (.retryable 10)]

theorem budget_exceeded_within_margin :
    ¬ ∀ (c : SupervisorIntervals) (s : Supervisor), (supervisorMachine c).Reachable s →
      s.GivesUpInTime c := by
  intro h
  -- accepted intervals that leave less room than a blocked attempt takes
  let longBusyTimeout : SupervisorIntervals :=
    { leaseSeconds := 12
      renewIntervalSeconds := 1
      renewalBusyTimeoutSeconds := 10
      maxTransientSeconds := 1 }
  let start : Supervisor := { wall := 0, mono := 0, leaseExpiresAt := 0 + 12, nextRenewal := 0 }
  have hruns : (supervisorMachine longBusyTimeout).Runs start blockedTurns := by decide +kernel
  have hlate := (h longBusyTimeout _ (Machine.reachable_run blockedTurns ⟨0, 0, rfl⟩ hruns)).failure_timely
  revert hlate
  decide +kernel

/-- Intervals that leave room for two blocked attempts and the waits between them. -/
theorem SupervisorIntervals.budgetFits_of_le (c : SupervisorIntervals)
    (h : c.renewalTurns * pollSeconds + c.maxTransientSeconds + c.leaseSafetyMarginSeconds +
      c.renewalRetrySeconds + pollSeconds + 2 * c.renewalBusyTimeoutSeconds ≤ c.leaseSeconds) :
    c.BudgetFits := by
  have hbusy := c.busy_pos
  have hretry := c.retry_pos
  have htransient := c.transient_pos
  have hpoll := pollSeconds_pos
  intro gap hgap
  have hle : c.leaseSeconds - c.renewalTurns * pollSeconds ≤ gap := by
    have hturns : pollSeconds ≤ c.renewalTurns * pollSeconds :=
      le_mul_of_one_le_left hpoll.le (by exact_mod_cast c.renewalTurns_pos)
    rcases List.mem_cons.1 hgap with rfl | hgap
    · linarith
    · exact (List.mem_singleton.1 hgap).ge
  refine ⟨by linarith, ?_⟩
  intro k _ limit _ _
  simp only [limit]
  linarith

/-- The defaults fit. -/
example : ({} : SupervisorIntervals).BudgetFits :=
  SupervisorIntervals.budgetFits_of_le _ (by
    have hturns : ({} : SupervisorIntervals).renewalTurns = 600 := by
      norm_num [SupervisorIntervals.renewalTurns, pollSeconds]
    rw [hturns]
    norm_num [pollSeconds])

end ResearchLab.Ownership
