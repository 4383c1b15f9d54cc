import ResearchLab.Canary.Service

/-!
# Lanes are not lost while times arrive in order

A thread that enters the lock with a time before the last one is ended by the watchdog's exception.
While nobody does, and no lane holds back a healthy sample beyond its limit, failures are latched
once and every lane that the supervisor finds overdue is reported.
-/
namespace ResearchLab.Canary
open Foundation

variable {β : Type}

/-- The times with which threads enter the lock are in order: none is before the last time of a
watchdog that it meets, and the supervisor finds no lane overdue that still has a healthy sample to
report. -/
def inOrder (lanes : List Lane) (s : Service β) : Action β → Bool
  | .tick _ => true
  | .lane lane _ =>
    match s.phase lane with
    | .sampled _ now => (s.watchdogs lane).lastNow ≤ now
    | _ => true
  | .supervisor =>
    match s.supervisor with
    | .sampled now => lanes.all fun lane =>
        (s.watchdogs lane).lastNow ≤ now &&
          match s.phase lane with
          | .reporting sample => sample.state ≠ .healthy || !((s.watchdogs lane).Overdue now)
          | _ => true
    | _ => true

def orderlyService (lanes : List Lane) : Machine (Service β) (Action β) where
  init s := ∃ clock startedAt, s = .start clock startedAt
  enabled s action := possible lanes s action && inOrder lanes s action
  step := step lanes

/-! ## What the steps do -/

theorem record_ok {w : Watchdog} (lane : Lane) (outcome : Outcome β) {now : ℚ}
    (h : w.lastNow ≤ now) :
    ∃ w' sample, record w lane outcome now = .ok (w', sample) ∧ sample.lane = lane ∧
      (sample.state = .healthy → w'.failureReason = none) ∧
      (w.failureReason ≠ none → w'.failureReason ≠ none) := by
  cases outcome with
  | success payload =>
    obtain ⟨w', a, hrecord, ha, hfailed⟩ := Watchdog.recordFastSample_ok h
    refine ⟨w', _, by rw [record, hrecord]; rfl, rfl, fun hstate => ?_, hfailed⟩
    by_contra hne
    simp [ha, hne] at hstate
  | error errorType =>
    have hassess := Watchdog.assess_ok h
    refine ⟨_, _, by rw [record, hassess]; rfl, rfl, fun hstate => ?_,
      Watchdog.failed_of_assess hassess⟩
    dsimp only at hstate
    split_ifs at hstate
  | hardFailure errorType message =>
    have hassess := Watchdog.assess_ok h
    refine ⟨_, _, by rw [record, hassess]; rfl, rfl, fun hstate => ?_,
      Watchdog.failed_of_assess hassess⟩
    cases hstate

/-- A supervisor whose time is not past assesses every lane. -/
theorem assessAll_ok {lanes : List Lane} {now : ℚ} {watchdogs : Lane → Watchdog}
    (h : ∀ lane ∈ lanes, (watchdogs lane).lastNow ≤ now) :
    ∃ assessments, (assessAll now lanes watchdogs).2 = .ok assessments ∧
      (∀ lane ∈ lanes, (watchdogs lane).Overdue now →
        ∃ a, a.failureReason ≠ none ∧ (lane, a) ∈ assessments) ∧
      ∀ lane, ((watchdogs lane).failureReason ≠ none →
          ((assessAll now lanes watchdogs).1 lane).failureReason ≠ none) ∧
        (¬(watchdogs lane).Overdue now →
          ((assessAll now lanes watchdogs).1 lane).failureReason =
            (watchdogs lane).failureReason) := by
  induction lanes generalizing watchdogs with
  | nil => exact ⟨[], rfl, by simp, fun lane => ⟨id, fun _ => rfl⟩⟩
  | cons lane lanes ih =>
    have hlane := h lane List.mem_cons_self
    set w := ({ watchdogs lane with lastNow := now } : Watchdog).evaluateFreshness now with hw
    have hoverdue : w.Overdue now ↔ (watchdogs lane).Overdue now := by
      rw [hw, Watchdog.evaluateFreshness_overdue]
      rfl
    obtain ⟨assessments, hrest, hfound, hkept⟩ :=
      @ih (Function.update watchdogs lane w) (by
        intro other hother
        rcases eq_or_ne other lane with rfl | hne
        · simp [hw]
        · rw [Function.update_of_ne hne]
          exact h other (List.mem_cons_of_mem _ hother))
    refine ⟨(lane, w.snapshot now) :: assessments, ?_, fun other hother hlate => ?_,
      fun other => ?_⟩
    · simp only [assessAll, Watchdog.assess_ok hlane, ← hw, hrest]
      rfl
    · rcases eq_or_ne other lane with rfl | hne
      · exact ⟨w.snapshot now, Watchdog.failed_of_overdue (w := { watchdogs other with lastNow := now })
          hlate, List.mem_cons_self⟩
      · obtain ⟨a, ha, hmem⟩ := hfound other (List.mem_of_ne_of_mem hne hother)
          (by rwa [Function.update_of_ne hne])
        exact ⟨a, ha, List.mem_cons_of_mem _ hmem⟩
    · have hfirst : (assessAll now (lane :: lanes) watchdogs).1 =
          (assessAll now lanes (Function.update watchdogs lane w)).1 := by
        simp only [assessAll, Watchdog.assess_ok hlane, ← hw]
      rw [hfirst]
      obtain ⟨hfailed, hfresh⟩ := hkept other
      rcases eq_or_ne other lane with rfl | hne
      · rw [Function.update_self] at hfailed hfresh
        refine ⟨fun hf => hfailed ?_, fun hf => (hfresh (hoverdue.not.2 hf)).trans ?_⟩
        · rw [hw, Watchdog.evaluateFreshness_of_failed (w := { watchdogs other with lastNow := now }) hf]
          exact hf
        · rw [hw, Watchdog.evaluateFreshness_of_fresh (w := { watchdogs other with lastNow := now }) hf]
      · rw [Function.update_of_ne hne] at hfailed hfresh
        exact ⟨hfailed, hfresh⟩

/-! ## The latch -/

/-- Who has latched a failure and not handed it on: a lane, or the supervisor. -/
def Escalating (s : Service β) : Option Lane → Prop
  | some lane => ∃ assessment, s.phase lane = .escalating assessment
  | none => ∃ lane assessment left, s.supervisor = .escalating lane assessment left

/-- A failure is handed on once, by the one who latched it. -/
structure Latched (s : Service β) : Prop where
  quiet : s.failureLane = none → s.failures = [] ∧ s.reports = [] ∧ ∀ who, ¬Escalating s who
  single : ∀ who who', Escalating s who → Escalating s who' → who = who'
  pending : ∀ who, Escalating s who → s.failures = []
  once : s.failures.length ≤ 1
  answered : s.failureLane ≠ none → s.failures ≠ [] ∨ ∃ who, Escalating s who

section
variable {s t : Service β}

theorem Latched.congr (h : Latched s) (hlane : t.failureLane = s.failureLane)
    (hfailures : t.failures = s.failures) (hreports : t.reports = s.reports)
    (hescalating : ∀ who, Escalating t who ↔ Escalating s who) : Latched t := by
  obtain ⟨hquiet, hsingle, hpending, honce, hanswered⟩ := h
  constructor <;> simpa only [hlane, hfailures, hreports, hescalating]

theorem Latched.latch (h : Latched s) (who : Option Lane) {lane : Lane}
    (hlane : t.failureLane = if s.failureLane = none then some lane else s.failureLane)
    (hfailures : t.failures = s.failures)
    (hescalating : ∀ w, Escalating t w ↔ Escalating s w ∨ w = who ∧ s.failureLane = none) :
    Latched t := by
  have hset : t.failureLane ≠ none := by
    rw [hlane]
    split_ifs with hnone
    · simp
    · exact hnone
  refine ⟨fun hnone => absurd hnone hset, fun w w' hw hw' => ?_, fun w hw => ?_, ?_, fun _ => ?_⟩
  · rcases (hescalating w).1 hw with hw | ⟨rfl, hnone⟩
    · rcases (hescalating w').1 hw' with hw' | ⟨rfl, hnone⟩
      · exact h.single w w' hw hw'
      · exact absurd hw ((h.quiet hnone).2.2 w)
    · rcases (hescalating w').1 hw' with hw' | ⟨rfl, -⟩
      · exact absurd hw' ((h.quiet hnone).2.2 w')
      · rfl
  · rw [hfailures]
    rcases (hescalating w).1 hw with hw | ⟨-, hnone⟩
    · exact h.pending w hw
    · exact (h.quiet hnone).1
  · rw [hfailures]
    exact h.once
  · rw [hfailures]
    by_cases hnone : s.failureLane = none
    · exact .inr ⟨who, (hescalating who).2 (.inr ⟨rfl, hnone⟩)⟩
    · rcases h.answered hnone with hsome | ⟨w, hw⟩
      · exact .inl hsome
      · exact .inr ⟨w, (hescalating w).2 (.inl hw)⟩

theorem Latched.escalate (h : Latched s) (who : Option Lane) {x : Lane × Assessment}
    (hwho : Escalating s who) (hlane : t.failureLane = s.failureLane)
    (hfailures : t.failures = s.failures ++ [x])
    (hescalating : ∀ w, Escalating t w ↔ Escalating s w ∧ w ≠ who) : Latched t := by
  have hfirst := h.pending who hwho
  rw [hfirst, List.nil_append] at hfailures
  refine ⟨fun hnone => ?_, fun w w' hw hw' => ?_, fun w hw => ?_, ?_, fun _ => .inl ?_⟩
  · rw [hlane] at hnone
    exact absurd hwho ((h.quiet hnone).2.2 who)
  · exact h.single w w' ((hescalating w).1 hw).1 ((hescalating w').1 hw').1
  · obtain ⟨hw, hne⟩ := (hescalating w).1 hw
    exact absurd (h.single w who hw hwho) hne
  · rw [hfailures]
    simp
  · rw [hfailures]
    simp

/-- A thread that moves between phases in which it does not escalate. -/
theorem escalating_setPhase {lane : Lane} {phase : LanePhase β} (who : Option Lane)
    (hold : ∀ a, s.phase lane ≠ .escalating a) (hnew : ∀ a, phase ≠ .escalating a) :
    Escalating (s.setPhase lane phase) who ↔ Escalating s who := by
  cases who with
  | none => exact Iff.rfl
  | some other =>
    rcases eq_or_ne other lane with rfl | hne
    · simp [Escalating, Service.setPhase, hold, hnew]
    · simp [Escalating, Service.setPhase, Function.update_of_ne hne]

end

/-! ## The invariant -/

/-- A healthy sample that waits to be reported is of a lane that has not failed. -/
def Honest (s : Service β) : Prop :=
  ∀ lane sample, s.phase lane = .reporting sample →
    sample.lane = lane ∧ (sample.state = .healthy → (s.watchdogs lane).failureReason = none)

structure Inv (s : Service β) : Prop extends Latched s where
  alive : ∀ lane message, s.phase lane ≠ .crashed message
  supervised : ∀ message, s.supervisor ≠ .crashed message
  honest : Honest s

/-- The failed lanes that the supervisor has still to report. -/
def remaining : SupervisorPhase → List (Lane × Assessment)
  | .failing left => left
  | .escalating _ _ left => left
  | _ => []

/-- What later states keep: failures stay, failed lanes report no healthy sample, and what was to
be reported is or will be. -/
structure Later (s t : Service β) : Prop where
  failed : ∀ lane, (s.watchdogs lane).failureReason ≠ none →
    (t.watchdogs lane).failureReason ≠ none
  samples : ∃ new, t.samples = s.samples ++ new ∧
    ∀ x ∈ new, x.state = .healthy → (s.watchdogs x.lane).failureReason = none
  reports : ∀ x, x ∈ s.reports ∨ x ∈ remaining s.supervisor →
    x ∈ t.reports ∨ x ∈ remaining t.supervisor

theorem Later.refl (s : Service β) : Later s s := ⟨fun _ h => h, ⟨[], by simp⟩, fun _ h => h⟩

theorem Later.trans {s t u : Service β} (h : Later s t) (h' : Later t u) : Later s u := by
  obtain ⟨new, hnew, hhealthy⟩ := h.samples
  obtain ⟨new', hnew', hhealthy'⟩ := h'.samples
  refine ⟨fun lane hf => h'.failed lane (h.failed lane hf), ⟨new ++ new', ?_, fun x hx hstate => ?_⟩,
    fun x hx => h'.reports x (h.reports x hx)⟩
  · rw [hnew', hnew, List.append_assoc]
  · rcases List.mem_append.1 hx with hx | hx
    · exact hhealthy x hx hstate
    · by_contra hf
      exact h.failed x.lane hf (hhealthy' x hx hstate)

theorem inv_start (clock startedAt : ℚ) : Inv (.start clock startedAt : Service β) where
  quiet _ := ⟨rfl, rfl, fun who => by cases who <;> simp [Escalating, Service.start]⟩
  single who _ h := by cases who <;> simp [Escalating, Service.start] at h
  pending _ _ := rfl
  once := by simp [Service.start]
  answered h := absurd rfl h
  alive := by simp [Service.start]
  supervised := by simp [Service.start]
  honest := by simp [Honest, Service.start]

section
variable {s : Service β} {lane : Lane}

/-- A thread that only moves. -/
theorem Inv.setPhase (h : Inv s) {phase : LanePhase β}
    (hold : ∀ a, s.phase lane ≠ .escalating a) (hnew : ∀ a, phase ≠ .escalating a)
    (hcrashed : ∀ m, phase ≠ .crashed m) (hreporting : ∀ x, phase ≠ .reporting x) :
    Inv (s.setPhase lane phase) ∧ Later s (s.setPhase lane phase) := by
  refine ⟨⟨h.toLatched.congr rfl rfl rfl fun who => escalating_setPhase who hold hnew,
    fun other m => ?_, h.supervised, fun other sample hphase => ?_⟩,
    ⟨fun _ hf => hf, ⟨[], by simp [Service.setPhase]⟩, fun _ hx => hx⟩⟩
  · rcases eq_or_ne other lane with rfl | hne
    · simpa [Service.setPhase] using hcrashed m
    · simpa [Service.setPhase, Function.update_of_ne hne] using h.alive other m
  · rcases eq_or_ne other lane with rfl | hne
    · simp only [Service.setPhase, Function.update_self] at hphase
      exact absurd hphase (hreporting sample)
    · simp only [Service.setPhase, Function.update_of_ne hne] at hphase
      exact h.honest other sample hphase

/-- A lane's step whose time is in order. -/
theorem Inv.laneStep (h : Inv s) {lanes : List Lane} {outcome : Outcome β}
    (horder : inOrder lanes s (.lane lane outcome)) :
    Inv (Canary.laneStep s lane outcome) ∧ Later s (Canary.laneStep s lane outcome) := by
  cases hphase : s.phase lane with
  | looping =>
    simp only [Canary.laneStep, hphase]
    apply h.setPhase (by simp [hphase]) <;> intro x <;> split_ifs <;> simp
  | probing =>
    simp only [Canary.laneStep, hphase]
    exact h.setPhase (by simp [hphase]) (by simp) (by simp) (by simp)
  | sampled outcome' now =>
    have hnow : (s.watchdogs lane).lastNow ≤ now := by simpa [inOrder, hphase] using horder
    obtain ⟨w, sample, hrecord, hlane, hhealthy, hfailed⟩ :=
      record_ok lane outcome' hnow
    simp only [Canary.laneStep, hphase, hrecord]
    refine ⟨⟨h.toLatched.congr rfl rfl rfl fun who => ?_, fun other m => ?_, h.supervised,
      fun other x hx => ?_⟩, ⟨fun other hf => ?_, ⟨[], by simp [Service.setPhase]⟩, fun _ hx => hx⟩⟩
    · exact escalating_setPhase (s := { s with watchdogs := _ }) who (by simp [hphase]) (by simp)
    · rcases eq_or_ne other lane with rfl | hne
      · simp [Service.setPhase]
      · simpa [Service.setPhase, Function.update_of_ne hne] using h.alive other m
    · rcases eq_or_ne other lane with rfl | hne
      · simp only [Service.setPhase, Function.update_self, LanePhase.reporting.injEq] at hx ⊢
        subst hx
        exact ⟨hlane, hhealthy⟩
      · simp only [Service.setPhase, Function.update_of_ne hne] at hx ⊢
        exact h.honest other x hx
    · rcases eq_or_ne other lane with rfl | hne
      · simpa [Service.setPhase] using hfailed hf
      · simpa [Service.setPhase, Function.update_of_ne hne] using hf
  | reporting sample =>
    obtain ⟨hlane, hhealthy⟩ := h.honest lane sample hphase
    simp only [Canary.laneStep, hphase]
    have hmoved : Inv (s.setPhase lane (if sample.watchdog.failureReason = none then .waiting
          else .failing sample.watchdog)) ∧
        Later s (s.setPhase lane (if sample.watchdog.failureReason = none then .waiting
          else .failing sample.watchdog)) := h.setPhase (by simp [hphase])
      (by intro a; split_ifs <;> simp) (by intro m; split_ifs <;> simp)
      (by intro x; split_ifs <;> simp)
    refine ⟨⟨hmoved.1.toLatched.congr rfl rfl rfl fun _ => Iff.rfl, hmoved.1.alive,
      hmoved.1.supervised, hmoved.1.honest⟩, ⟨fun _ hf => hf, ⟨[sample], rfl, ?_⟩, fun _ hx => hx⟩⟩
    intro x hx hstate
    rw [List.mem_singleton.1 hx] at hstate ⊢
    rw [hlane]
    exact hhealthy hstate
  | failing assessment =>
    simp only [Canary.laneStep, hphase]
    refine ⟨⟨h.toLatched.latch (some lane) rfl rfl fun who => ?_, fun other m => ?_,
      h.supervised, fun other x hx => ?_⟩, ⟨fun _ hf => hf, ⟨[], by simp [Service.setPhase,
        Service.latch]⟩, fun x hx => ?_⟩⟩
    · cases who with
      | none => simp [Escalating, Service.setPhase, Service.latch]
      | some other =>
        rcases eq_or_ne other lane with rfl | hne
        · by_cases hnone : s.failureLane = none <;>
            simp [Escalating, Service.setPhase, hphase, hnone]
        · simp [Escalating, Service.setPhase, Service.latch, hne]
    · rcases eq_or_ne other lane with rfl | hne
      · simp only [Service.setPhase, Function.update_self]
        split_ifs <;> simp
      · simpa [Service.setPhase, Service.latch, Function.update_of_ne hne] using h.alive other m
    · rcases eq_or_ne other lane with rfl | hne
      · simp only [Service.setPhase, Function.update_self] at hx
        split_ifs at hx
      · simp only [Service.setPhase, Service.latch, Function.update_of_ne hne] at hx
        exact h.honest other x hx
    · rcases hx with hx | hx
      · exact .inl (List.mem_append_left _ hx)
      · exact .inr hx
  | escalating assessment =>
    simp only [Canary.laneStep, hphase]
    refine ⟨⟨h.toLatched.escalate (some lane) ⟨assessment, hphase⟩ rfl rfl fun who => ?_,
      fun other m => ?_, h.supervised, fun other x hx => ?_⟩,
      ⟨fun _ hf => hf, ⟨[], by simp [Service.setPhase, Service.escalate]⟩, fun _ hx => hx⟩⟩
    · cases who with
      | none => simp [Escalating, Service.setPhase, Service.escalate]
      | some other =>
        rcases eq_or_ne other lane with rfl | hne
        · simp [Escalating, Service.setPhase]
        · simp [Escalating, Service.setPhase, Service.escalate, hne]
    · rcases eq_or_ne other lane with rfl | hne
      · simp [Service.setPhase]
      · simpa [Service.setPhase, Service.escalate, Function.update_of_ne hne] using h.alive other m
    · rcases eq_or_ne other lane with rfl | hne
      · simp [Service.setPhase] at hx
      · simp only [Service.setPhase, Service.escalate, Function.update_of_ne hne] at hx
        exact h.honest other x hx
  | waiting =>
    simp only [Canary.laneStep, hphase]
    apply h.setPhase (by simp [hphase]) <;> intro x <;> split_ifs <;> simp
  | returned =>
    simp only [Canary.laneStep, hphase]
    exact ⟨h, .refl s⟩
  | crashed message => exact absurd hphase (h.alive lane message)

/-- The supervisor assesses every lane: overdue ones are to be reported. -/
theorem supervisor_assesses {lanes : List Lane} {now : ℚ} (hphase : s.supervisor = .sampled now)
    (horder : inOrder lanes s (.supervisor : Action β)) :
    ∃ watchdogs left, supervisorStep lanes s = { s with watchdogs, supervisor := .failing left } ∧
      (∀ lane ∈ lanes, (s.watchdogs lane).Overdue now →
        ∃ a, a.failureReason ≠ none ∧ (lane, a) ∈ left) ∧
      ∀ lane, ((s.watchdogs lane).failureReason ≠ none → (watchdogs lane).failureReason ≠ none) ∧
        (¬(s.watchdogs lane).Overdue now →
          (watchdogs lane).failureReason = (s.watchdogs lane).failureReason) := by
  have htimes : ∀ lane ∈ lanes, (s.watchdogs lane).lastNow ≤ now := by
    intro lane hlane
    simp only [inOrder, hphase, List.all_eq_true, Bool.and_eq_true, decide_eq_true_eq] at horder
    exact (horder lane hlane).1
  obtain ⟨assessments, hassess, hfound, hkept⟩ := assessAll_ok htimes
  refine ⟨(assessAll now lanes s.watchdogs).1,
    assessments.filter fun a => a.2.failureReason ≠ none, ?_, fun lane hlane hlate => ?_, hkept⟩
  · have hpair : assessAll now lanes s.watchdogs =
        ((assessAll now lanes s.watchdogs).1, .ok assessments) := Prod.ext rfl hassess
    rw [supervisorStep, hphase]
    simp only
    rw [hpair]
  · obtain ⟨a, ha, hmem⟩ := hfound lane hlane hlate
    exact ⟨a, ha, List.mem_filter.2 ⟨hmem, by simpa using ha⟩⟩

/-- A supervisor that escalates nothing before and after. -/
theorem escalating_supervisor {phase : SupervisorPhase} {watchdogs : Lane → Watchdog}
    (who : Option Lane) (hold : ∀ lane a left, s.supervisor ≠ .escalating lane a left)
    (hnew : ∀ lane a left, phase ≠ .escalating lane a left) :
    Escalating { s with watchdogs, supervisor := phase } who ↔ Escalating s who := by
  cases who with
  | none => simp [Escalating, hold, hnew]
  | some lane => exact Iff.rfl

/-- A supervisor's step whose times are in order; a lane outside the service never reports. -/
theorem Inv.supervisorStep (h : Inv s) {lanes : List Lane}
    (hlanes : ∀ lane, lane ∉ lanes → s.phase lane = .looping)
    (horder : inOrder lanes s (.supervisor : Action β)) :
    Inv (supervisorStep lanes s) ∧ Later s (supervisorStep lanes s) := by
  cases hphase : s.supervisor with
  | waiting =>
    simp only [Canary.supervisorStep, hphase]
    refine ⟨⟨h.toLatched.congr rfl rfl rfl fun who => ?_, h.alive, fun m => ?_, h.honest⟩,
      ⟨fun _ hf => hf, ⟨[], by simp⟩, fun x hx => .inl (hx.elim id fun hx => ?_)⟩⟩
    · exact escalating_supervisor who (by simp [hphase]) (by intro lane a left; split_ifs <;> simp)
    · split_ifs <;> simp
    · simp [hphase, remaining] at hx
  | sampled now =>
    obtain ⟨watchdogs, left, hstep, -, hkept⟩ := supervisor_assesses hphase horder
    rw [hstep]
    refine ⟨⟨h.toLatched.congr rfl rfl rfl fun who => ?_, h.alive, by simp, fun lane sample hlane => ?_⟩,
      ⟨fun lane hf => (hkept lane).1 hf, ⟨[], by simp⟩, fun x hx => .inl (hx.elim id fun hx => ?_)⟩⟩
    · exact escalating_supervisor who (by simp [hphase]) (by simp)
    · obtain ⟨hsame, hhealthy⟩ := h.honest lane sample hlane
      refine ⟨hsame, fun hstate => ?_⟩
      have hmem : lane ∈ lanes := by
        by_contra hout
        have hlooping := hlanes lane hout
        simp only at hlane
        rw [hlane] at hlooping
        cases hlooping
      have hfresh : ¬(s.watchdogs lane).Overdue now := by
        simp only [inOrder, hphase, List.all_eq_true, Bool.and_eq_true] at horder
        have hlate := (horder lane hmem).2
        simp only at hlane
        rw [hlane] at hlate
        simpa [hstate] using hlate
      exact ((hkept lane).2 hfresh).trans (hhealthy hstate)
    · simp [hphase, remaining] at hx
  | failing left =>
    cases left with
    | nil =>
      simp only [Canary.supervisorStep, hphase]
      refine ⟨⟨h.toLatched.congr rfl rfl rfl fun who => ?_, h.alive, by simp, h.honest⟩,
        ⟨fun _ hf => hf, ⟨[], by simp⟩, fun x hx => .inl (hx.elim id fun hx => ?_)⟩⟩
      · exact escalating_supervisor who (by simp [hphase]) (by simp)
      · simp [hphase, remaining] at hx
    | cons x left =>
      obtain ⟨lane, assessment⟩ := x
      simp only [Canary.supervisorStep, hphase]
      refine ⟨⟨h.toLatched.latch none rfl rfl fun who => ?_, h.alive, fun m => ?_, h.honest⟩,
        ⟨fun _ hf => hf, ⟨[], by simp [Service.latch]⟩, fun y hy => ?_⟩⟩
      · cases who with
        | none => by_cases hnone : s.failureLane = none <;> simp [Escalating, hphase, hnone]
        | some lane => simp [Escalating, Service.latch]
      · split_ifs <;> simp
      · have hleft : remaining (if s.failureLane = none then
            SupervisorPhase.escalating lane assessment left else .failing left) = left := by
          split_ifs <;> rfl
        simp only [hphase, remaining, List.mem_cons] at hy
        rw [hleft]
        rcases hy with hy | rfl | hy
        · exact .inl (List.mem_append_left _ hy)
        · exact .inl (List.mem_append_right _ (List.mem_singleton_self _))
        · exact .inr hy
  | escalating lane assessment left =>
    simp only [Canary.supervisorStep, hphase]
    refine ⟨⟨h.toLatched.escalate none ⟨lane, assessment, left, hphase⟩ rfl rfl
      fun who => ?_, h.alive, by simp, h.honest⟩,
      ⟨fun _ hf => hf, ⟨[], by simp [Service.escalate]⟩, fun y hy => ?_⟩⟩
    · cases who with
      | none => simp [Escalating]
      | some lane => simp [Escalating, Service.escalate]
    · simpa [hphase, remaining, Service.escalate] using hy
  | returned =>
    simp only [Canary.supervisorStep, hphase]
    exact ⟨h, .refl s⟩
  | crashed message => exact absurd hphase (h.supervised message)

end

/-! ## Runs -/

section
variable {lanes : List Lane} {s t : Service β}

/-- A step of one lane leaves the phases of the others. -/
theorem laneStep_phase_of_ne {lane other : Lane} (outcome : Outcome β) (hne : other ≠ lane) :
    (laneStep s lane outcome).phase other = s.phase other := by
  unfold laneStep
  cases s.phase lane with
  | sampled outcome' now =>
    cases hrecord : record (s.watchdogs lane) lane outcome' now <;>
      simp [hrecord, Service.setPhase, Function.update_of_ne hne]
  | _ => simp [Service.setPhase, Service.latch, Service.escalate, Function.update_of_ne hne]

theorem supervisorStep_phase : (supervisorStep lanes s).phase = s.phase := by
  unfold supervisorStep
  split <;> try rfl
  split <;> rfl

/-- An orderly step keeps the invariant, and the lanes that are not of the service at rest. -/
theorem inv_step {action : Action β}
    (h : Inv s ∧ ∀ lane, lane ∉ lanes → s.phase lane = .looping)
    (haction : (orderlyService lanes).enabled s action) :
    (Inv ((orderlyService lanes).step s action) ∧
      ∀ lane, lane ∉ lanes → ((orderlyService lanes).step s action).phase lane = .looping) ∧
      Later s ((orderlyService lanes).step s action) := by
  obtain ⟨hinv, hout⟩ := h
  obtain ⟨hpossible, horder⟩ := Bool.and_eq_true_iff.1 haction
  cases action with
  | tick now =>
    exact ⟨⟨⟨hinv.toLatched.congr rfl rfl rfl fun who => by cases who <;> exact Iff.rfl, hinv.alive,
      hinv.supervised, hinv.honest⟩, hout⟩, ⟨fun _ hf => hf, ⟨[], by simp [orderlyService, step]⟩,
        fun _ hx => hx⟩⟩
  | lane lane outcome =>
    obtain ⟨hinv', hlater⟩ := hinv.laneStep horder
    refine ⟨⟨hinv', fun other hother => ?_⟩, hlater⟩
    have hne : other ≠ lane := by
      rintro rfl
      exact hother (of_decide_eq_true hpossible)
    exact (laneStep_phase_of_ne outcome hne).trans (hout other hother)
  | supervisor =>
    obtain ⟨hinv', hlater⟩ := hinv.supervisorStep hout horder
    refine ⟨⟨hinv', fun other hother => ?_⟩, hlater⟩
    exact (congrFun supervisorStep_phase other).trans (hout other hother)

theorem inv_of_reachable (h : (orderlyService lanes).Reachable s) :
    Inv s ∧ ∀ lane, lane ∉ lanes → s.phase lane = .looping :=
  h.invariant (P := fun s => Inv s ∧ ∀ lane, lane ∉ lanes → s.phase lane = .looping)
    (by rintro _ ⟨clock, startedAt, rfl⟩; exact ⟨inv_start clock startedAt, fun _ _ => rfl⟩)
    (fun _ _ _ hs haction => (inv_step hs haction).1)

theorem later_of_steps {actions : List (Action β)} (h : (orderlyService lanes).Reachable s)
    (hrun : (orderlyService lanes).Steps s actions t) : Later s t :=
  hrun.relates Later.refl (fun _ _ _ => Later.trans)
    (fun _ _ hs haction => (inv_step (inv_of_reachable hs) haction).2) h

/-- While times arrive in order no thread is ended by an exception, one failure is handed on, every
lane that the supervisor finds overdue is reported before it waits again, and a lane whose watchdog
has failed reports no healthy sample any more. -/
theorem orderly_monitor_loses_no_lane (h : (orderlyService lanes).Reachable s) :
    (∀ lane message, s.phase lane ≠ .crashed message) ∧
      (∀ message, s.supervisor ≠ .crashed message) ∧
      s.failures.length ≤ 1 ∧
      (∀ now lane, s.supervisor = .sampled now → lane ∈ lanes → (s.watchdogs lane).Overdue now →
        ∀ actions t, (orderlyService lanes).Steps s (.supervisor :: actions) t →
          remaining t.supervisor = [] →
            (∃ a, a.failureReason ≠ none ∧ (lane, a) ∈ t.reports) ∧ t.failureLane ≠ none) ∧
      ∀ lane actions t, (s.watchdogs lane).failureReason ≠ none →
        (orderlyService lanes).Steps s actions t →
          ∃ new, t.samples = s.samples ++ new ∧ ∀ x ∈ new, x.lane = lane → x.state ≠ .healthy := by
  obtain ⟨hinv, -⟩ := inv_of_reachable h
  refine ⟨hinv.alive, hinv.supervised, hinv.once, ?_, fun lane actions t hfailed hrun => ?_⟩
  · intro now lane hphase hlane hlate actions t hrun hdone
    cases hrun with
    | cons haction hrun =>
      obtain ⟨watchdogs, left, hstep, hfound, -⟩ :=
        supervisor_assesses hphase (Bool.and_eq_true_iff.1 haction).2
      obtain ⟨a, ha, hmem⟩ := hfound lane hlane hlate
      have hnext := h.step haction
      have hleft : (lane, a) ∈ remaining ((orderlyService lanes).step s .supervisor).supervisor := by
        have hstep' : (orderlyService lanes).step s .supervisor =
            { s with watchdogs, supervisor := .failing left } := hstep
        rw [hstep']
        exact hmem
      have hreported : (lane, a) ∈ t.reports := by
        rcases (later_of_steps hnext hrun).reports _ (.inr hleft) with hmem | hmem
        · exact hmem
        · simp [hdone] at hmem
      refine ⟨⟨a, ha, hreported⟩, fun hnone => ?_⟩
      rw [((inv_of_reachable (hrun.reachable hnext)).1.quiet hnone).2.1] at hreported
      simp at hreported
  · obtain ⟨new, hnew, hhealthy⟩ := (later_of_steps h hrun).samples
    refine ⟨new, hnew, fun x hx hlane hstate => ?_⟩
    rw [← hlane] at hfailed
    exact hfailed (hhealthy x hx hstate)

end

/-! ## A lane that is overtaken -/

def threeLanes : List Lane := [.fastSafety, .deepDatabase, .productProgress]

/-- The fast lane reads the clock, and the supervisor reads it later and takes the lock first. -/
def overtaken : List (Action Unit) :=
  [.tick 1, .lane .fastSafety (.success ()), .lane .fastSafety (.success ()), .tick 2, .supervisor,
    .supervisor, .lane .fastSafety (.success ())]

/-- The fast lane samples in time and then for twenty seconds no more. -/
def overdue : List (Action Unit) :=
  [.tick 1, .lane .fastSafety (.success ()), .lane .fastSafety (.success ()),
    .lane .fastSafety (.success ()), .lane .fastSafety (.success ()), .tick 21, .supervisor]

theorem orderly_monitor_loses_no_lane_overdue :
    let s := (orderlyService threeLanes).run (.start 0 0) overdue
    (s.watchdogs .fastSafety).Overdue 21 ∧
      (∃ a, a.failureReason ≠ none ∧
        (Lane.fastSafety, a) ∈ ((orderlyService threeLanes).run s
          [.supervisor, .supervisor, .supervisor]).reports) ∧
      ((orderlyService threeLanes).run s [.supervisor, .supervisor, .supervisor]).failureLane ≠
        none := by
  have hreachable : (orderlyService threeLanes).Reachable
      ((orderlyService threeLanes).run (.start 0 0) overdue) :=
    Machine.reachable_run _ ⟨0, 0, rfl⟩ (by
      simp only [overdue, Machine.Runs, orderlyService]
      decide +kernel)
  have hrun : (orderlyService threeLanes).Steps
      ((orderlyService threeLanes).run (.start 0 0) overdue) [.supervisor, .supervisor, .supervisor]
      ((orderlyService threeLanes).run ((orderlyService threeLanes).run (.start 0 0) overdue)
        [.supervisor, .supervisor, .supervisor]) :=
    Machine.Runs.steps (by
      simp only [Machine.Runs, orderlyService]
      decide +kernel)
  have hlate : (((orderlyService threeLanes).run (.start 0 0) overdue).watchdogs
      .fastSafety).Overdue 21 := by decide +kernel
  exact ⟨hlate, (orderly_monitor_loses_no_lane hreachable).2.2.2.1 21 .fastSafety (by decide +kernel)
    (by decide) hlate _ _ hrun (by decide +kernel)⟩

/-- The supervisor overtakes a lane between its look at the clock and the lock: the lane's thread
is ended by the exception, and nobody is told. -/
theorem overtaken_lane_crashes :
    let s := (service threeLanes).run (.start 0 0) overtaken
    (service threeLanes).Runs (.start 0 0) overtaken ∧
      s.phase .fastSafety = .crashed "monotonic time moved backwards" ∧ s.failures = [] := by
  simp only [overtaken, Machine.Runs, service]
  decide +kernel

end ResearchLab.Canary
