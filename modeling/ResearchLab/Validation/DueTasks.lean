import Mathlib
import ResearchLab.Foundation.Effects
import ResearchLab.FarmTasks.Fairness

/-!
# Due validations

`run_due_validations` claims `export_validation` tasks one after another. It settles those that
cannot be validated, asks for the artifacts of the others batch by batch, and settles what is left
by the verdicts. The store, the clock and the artifacts answer it, and it may stop anywhere.
-/
namespace ResearchLab.Validation.DueTasks
open Foundation FarmTasks

def maxValidationAttempts : ℕ := 3
def minValidationScanLimit : ℕ := 32
def maxValidationScanLimit : ℕ := 256
def validationFreshnessWindowSeconds : ℚ := 3600
def validationFreshSlotEvery : ℕ := 2

structure Request where
  apply : Bool
  limit : ℤ
  now : Option ℚ

/-- `limit = max(0, int(limit))`. -/
def Request.room (req : Request) : ℕ := req.limit.toNat

def Request.scanLimit (req : Request) : ℕ :=
  max req.room (min maxValidationScanLimit (max minValidationScanLimit (req.room * 32)))

/-- `until=(now or 0) + 300`. -/
def Request.due (req : Request) : ℚ := req.now.getD 0 + 300

def claimArgs (now : Option ℚ) : ClaimArgs where
  taskTypes := ["export_validation"]
  now
  fairnessKey := some "export_validation"
  freshnessWindowSeconds := some validationFreshnessWindowSeconds
  freshEvery := validationFreshSlotEvery

inductive Disposition
  | skip (reason : String)
  | defer (reason : String)
  | eligible
  deriving DecidableEq

/-- `classify_export_validation_task`; the row of the candidate is its status. -/
def classifyTask (ucKey : String → String) (status : String → Option String) (current : ℚ)
    (task : TaskRow) : Disposition :=
  let key := ucKey task.spec.payloadJson
  if key = "" then .skip "validation_task_missing_uc_key"
  else
    match status key with
    | none =>
        -- `created_at or current`
        let created := if task.createdAt = 0 then current else task.createdAt
        if max 0 (current - created) < 600 then .defer "validation_candidate_not_yet_visible"
        else .skip "validation_orphan_missing_unique_candidate"
    | some status =>
        if status = "FORWARD_PAPER" ∨ status = "REGIME_SPECIFIC" then .eligible
        else .skip "validation_candidate_no_longer_eligible"

/-! ## What the call touches -/

/-- The store and its database, how often the clock was read, and the tasks that the call claimed
and deferred so far. -/
structure Call where
  store : FarmTasks.Store
  db : TaskDb
  readings : ℕ := 0
  claims : List ℕ := []
  deferrals : List ℕ := []

inductive Effect
  | claim
  | classify (task : TaskRow)
  | settle (tid : ℕ) (change : StateRequest)
  | prepare (tasks : List TaskRow)
  | validate (tasks : List TaskRow)

def Answer : Effect → Type
  | .claim => Except TaskError (Option TaskRow)
  | .classify _ => Except TaskError Disposition
  | .settle _ _ => Except TaskError Unit
  | .prepare _ => TaskRow → Bool
  | .validate _ => TaskRow → Bool

/-- What the candidate table holds, and the tasks that have an artifact or a verdict. -/
structure Choice where
  status : String → Option String
  chosen : TaskRow → Bool

section
variable (now : Option ℚ) (clock : ℕ → ℚ)

def Call.claim (c : Call) : Except TaskError (Option TaskRow) × Call :=
  let r := claimNextTask (claimArgs now) ⟨clock c.readings, clock (c.readings + 1)⟩ c.store c.db
  (r.1, { c with
    store := r.2.1
    db := r.2.2
    readings := c.readings + 2
    claims := match r.1 with
      | .ok (some task) => c.claims ++ [task.taskId]
      | _ => c.claims })

def Call.classify (ucKey : String → String) (status : String → Option String) (task : TaskRow)
    (c : Call) : Except TaskError Disposition × Call :=
  if task.spec.taskType ≠ "export_validation" then
    (.error (.value "task is not export_validation"), c)
  else
    let current := effectiveNow c.store now (clock c.readings)
    (.ok (classifyTask ucKey status current task),
      { c with store := c.store.advance current, readings := c.readings + 1 })

/-- `skip_task`, `defer_task` and `complete_task`. -/
def Call.settle (tid : ℕ) (change : StateRequest) (c : Call) : Except TaskError Unit × Call :=
  match setStateCheck tid change.target now (clock c.readings) c.store c.db with
  | (.error e, store) => (.error e, { c with store, readings := c.readings + 1 })
  | (.ok row, store) =>
      let r := setStateWrite change tid row (clock (c.readings + 1)) store c.db
      (r.1, { c with
        store := r.2.1
        db := r.2.2
        readings := c.readings + 2
        deferrals := match r.1, change with
          | .ok (), .defer _ _ => c.deferrals ++ [tid]
          | _, _ => c.deferrals })

def respond (ucKey : String → String) : (e : Effect) → Choice → Call → Answer e × Call
  | .claim, _, c => c.claim now clock
  | .classify task, choice, c => c.classify now clock ucKey choice.status task
  | .settle tid change, _, c => c.settle now clock tid change
  | .prepare _, choice, c => (choice.chosen, c)
  | .validate _, choice, c => (choice.chosen, c)

def lab (ucKey : String → String) : Device Effect Answer Choice Call where
  respond := respond now clock ucKey

end

abbrev Lab := Prog Effect Answer TaskError

def claimNext : Lab (Option TaskRow) := (Prog.perform Effect.claim).bind Prog.ofExcept

def classify (task : TaskRow) : Lab Disposition :=
  (Prog.perform (Effect.classify task)).bind Prog.ofExcept

def settle (tid : ℕ) (change : StateRequest) : Lab Unit :=
  (Prog.perform (Effect.settle tid change)).bind Prog.ofExcept

def prepareRequests (tasks : List TaskRow) : Lab (TaskRow → Bool) := Prog.perform (Effect.prepare tasks)

def runValidationBatch (tasks : List TaskRow) : Lab (TaskRow → Bool) :=
  Prog.perform (Effect.validate tasks)

/-! ## The call -/

structure Counters where
  tasksExamined : ℕ := 0
  orphanTasksSkipped : ℕ := 0
  ineligibleTasksSkipped : ℕ := 0
  visibilityTasksDeferred : ℕ := 0
  retryExhaustedSkipped : ℕ := 0
  artifactBatches : ℕ := 0
  artifactReadyTasks : ℕ := 0
  fairScanExhausted : ℕ := 0

def Counters.skipped (n : Counters) (reason : String) : Counters :=
  if reason = "validation_orphan_missing_unique_candidate" then
    { n with orphanTasksSkipped := n.orphanTasksSkipped + 1 }
  else { n with ineligibleTasksSkipped := n.ineligibleTasksSkipped + 1 }

def Counters.deferred (n : Counters) : Counters :=
  { n with visibilityTasksDeferred := n.visibilityTasksDeferred + 1 }

def Counters.exhausted (n : Counters) : Counters :=
  { n with retryExhaustedSkipped := n.retryExhaustedSkipped + 1 }

@[simp] theorem Counters.skipped_tasksExamined (n : Counters) (reason : String) :
    (n.skipped reason).tasksExamined = n.tasksExamined := by
  unfold skipped
  split_ifs <;> rfl

@[simp] theorem Counters.deferred_tasksExamined (n : Counters) :
    n.deferred.tasksExamined = n.tasksExamined := rfl

@[simp] theorem Counters.exhausted_tasksExamined (n : Counters) :
    n.exhausted.tasksExamined = n.tasksExamined := rfl

/-- Between two turns of the inner loop. -/
structure Probe where
  counters : Counters
  probeTasks : List TaskRow := []
  queueExhausted : Bool

/-- Between two turns of the outer loop. -/
structure Scan where
  counters : Counters := {}
  exportTasks : List TaskRow := []
  queueExhausted : Bool := false

/-- The inner loop. Every turn examines a task, so `scan_limit - tasks_examined` turns are left. -/
def probeTasks (req : Request) (probeCapacity : ℕ) : ℕ → Probe → Lab Probe
  | 0, p => pure p
  | turns + 1, p =>
      if p.probeTasks.length < probeCapacity then do
        match ← claimNext with
        | none => pure { p with queueExhausted := true }
        | some task =>
            let counters := { p.counters with tasksExamined := p.counters.tasksExamined + 1 }
            match ← classify task with
            | .skip reason =>
                settle task.taskId (.skip reason)
                probeTasks req probeCapacity turns { p with counters := counters.skipped reason }
            | .defer reason =>
                settle task.taskId (.defer req.due reason)
                probeTasks req probeCapacity turns { p with counters := counters.deferred }
            | .eligible =>
                probeTasks req probeCapacity turns
                  { p with counters := counters, probeTasks := p.probeTasks ++ [task] }
      else pure p

/-- A task without artifact or verdict is deferred, until its attempts are exhausted. -/
def backOff (req : Request) (reason : String) (n : Counters) (task : TaskRow) : Lab Counters :=
  if maxValidationAttempts ≤ task.attempts then do
    settle task.taskId (.skip (reason ++ "_retry_exhausted"))
    pure n.exhausted
  else do
    settle task.taskId (.defer req.due reason)
    pure n

/-- One turn of the loop over a batch. -/
def placeProbe (req : Request) (ready : TaskRow → Bool) (s : Scan) (task : TaskRow) : Lab Scan :=
  if ready task then
    pure { s with
      exportTasks := s.exportTasks ++ [task]
      counters := { s.counters with artifactReadyTasks := s.counters.artifactReadyTasks + 1 } }
  else do
    let counters ← backOff req "validation_artifact_unavailable" s.counters task
    pure { s with counters := counters }

/-- The outer loop. It examines a task in every turn but its last one, so that `scan_limit` turns are
enough (`scanTasks_finishes`). -/
def scanTasks (req : Request) : ℕ → Scan → Lab Scan
  | 0, s => pure s
  | turns + 1, s =>
      if s.exportTasks.length < req.room ∧ s.counters.tasksExamined < req.scanLimit then do
        let left := req.scanLimit - s.counters.tasksExamined
        let probeCapacity := min (req.room - s.exportTasks.length) left
        let p ← probeTasks req probeCapacity left
          { counters := s.counters, queueExhausted := s.queueExhausted }
        let s : Scan := { s with counters := p.counters, queueExhausted := p.queueExhausted }
        if p.probeTasks = [] then
          if p.queueExhausted then pure s else scanTasks req turns s
        else if !req.apply then
          scanTasks req turns { s with exportTasks := s.exportTasks ++ p.probeTasks }
        else
          let ready ← prepareRequests p.probeTasks
          let counters := { s.counters with artifactBatches := s.counters.artifactBatches + 1 }
          let s ← Prog.forEach (placeProbe req ready) { s with counters := counters } p.probeTasks
          if s.queueExhausted then pure s else scanTasks req turns s
      else pure s

/-- One turn of the loops over the exported tasks; without any verdict they all back off. -/
def terminalize (req : Request) (verdict : TaskRow → Bool) (n : Counters) (task : TaskRow) :
    Lab Counters :=
  if verdict task then do
    settle task.taskId (.complete none none none "validated")
    pure n
  else backOff req "validation_no_verdict" n task

def finishDryRun (n : Counters) (task : TaskRow) : Lab Counters := do
  settle task.taskId (.complete none none none "export_dry_run")
  pure n

def runDueValidations (req : Request) : Lab Counters := do
  let s ← scanTasks req req.scanLimit {}
  let counters :=
    if req.scanLimit ≤ s.counters.tasksExamined ∧ s.exportTasks.length < req.room then
      { s.counters with fairScanExhausted := 1 }
    else s.counters
  if s.exportTasks = [] then pure counters
  else if !req.apply then Prog.forEach finishDryRun counters s.exportTasks
  else
    let verdict ← runValidationBatch s.exportTasks
    Prog.forEach (terminalize req verdict) counters s.exportTasks

/-! ## Enough turns -/

section
variable {req : Request} {c : Call} {dev : Device Effect Answer Choice Call}

/-- The inner loop examines at least its probes, and one task unless the queue is exhausted. -/
theorem probeTasks_examines {cap : ℕ} (turns : ℕ) (p : Probe) :
    Prog.wp dev (fun _ => True) (fun p' _ =>
      p.counters.tasksExamined ≤ p'.counters.tasksExamined ∧
      p.counters.tasksExamined + p'.probeTasks.length ≤
        p'.counters.tasksExamined + p.probeTasks.length ∧
      (0 < turns → p.probeTasks.length < cap →
        p'.queueExhausted = true ∨ p.counters.tasksExamined < p'.counters.tasksExamined))
      (fun _ _ => True) (probeTasks req cap turns p) c := by
  induction turns generalizing p c with
  | zero => exact ⟨le_rfl, le_rfl, fun h => absurd h (lt_irrefl 0)⟩
  | succ turns ih =>
    rw [probeTasks]
    by_cases hcap : p.probeTasks.length < cap
    swap
    · rw [if_neg hcap]
      exact ⟨le_rfl, le_rfl, fun _ h => absurd h hcap⟩
    rw [if_pos hcap]
    refine Prog.wp_seq fun _ => ⟨trivial, (Prog.wp_ofExcept _).2 ⟨fun task? _ => ?_, fun _ _ => trivial⟩⟩
    cases task? with
    | none => exact ⟨le_rfl, le_rfl, fun _ _ => .inl rfl⟩
    | some task =>
      refine Prog.wp_seq fun _ => ⟨trivial, (Prog.wp_ofExcept _).2 ⟨fun d _ => ?_, fun _ _ => trivial⟩⟩
      have hsettled : ∀ (change : StateRequest) (p₁ : Probe) (c : Call),
          p₁.counters.tasksExamined = p.counters.tasksExamined + 1 →
          p₁.probeTasks = p.probeTasks →
          Prog.wp dev (fun _ => True) (fun p' _ =>
            p.counters.tasksExamined ≤ p'.counters.tasksExamined ∧
            p.counters.tasksExamined + p'.probeTasks.length ≤
              p'.counters.tasksExamined + p.probeTasks.length ∧
            (0 < turns + 1 → p.probeTasks.length < cap →
              p'.queueExhausted = true ∨ p.counters.tasksExamined < p'.counters.tasksExamined))
            (fun _ _ => True)
            (settle task.taskId change >>= fun _ => probeTasks req cap turns p₁) c := by
        intro change p₁ c hexamined hprobes
        refine Prog.wp_seq fun _ =>
          ⟨trivial, (Prog.wp_ofExcept _).2 ⟨fun _ _ => ?_, fun _ _ => trivial⟩⟩
        refine Prog.wp_mono (fun p' _ h => ?_) (fun _ _ => id) (ih p₁)
        rw [hexamined, hprobes] at h
        exact ⟨by omega, by omega, fun _ _ => .inr (by omega)⟩
      cases d with
      | skip reason => exact hsettled _ _ _ (by simp) rfl
      | defer reason => exact hsettled _ _ _ (by simp) rfl
      | eligible =>
        refine Prog.wp_mono (fun p' _ h => ?_) (fun _ _ => id) (ih _)
        simp only [List.length_append, List.length_singleton] at h
        exact ⟨by omega, by omega, fun _ _ => .inr (by omega)⟩

/-- The loop over a batch examines nothing. -/
theorem placeProbes_examines (ready : TaskRow → Bool) (tasks : List TaskRow) (s : Scan) :
    Prog.wp dev (fun _ => True) (fun s' _ =>
      s'.counters.tasksExamined = s.counters.tasksExamined ∧
        s'.queueExhausted = s.queueExhausted)
      (fun _ _ => True) (Prog.forEach (placeProbe req ready) s tasks) c := by
  refine Prog.wp_forEach (fun s₁ c₁ task _ h => ?_) ⟨rfl, rfl⟩
  rw [placeProbe]
  split
  · exact h
  · rw [backOff]
    split
    · exact Prog.wp_seq (Prog.wp_seq fun _ =>
        ⟨trivial, (Prog.wp_ofExcept _).2 ⟨fun _ _ => h, fun _ _ => trivial⟩⟩)
    · exact Prog.wp_seq (Prog.wp_seq fun _ =>
        ⟨trivial, (Prog.wp_ofExcept _).2 ⟨fun _ _ => h, fun _ _ => trivial⟩⟩)

/-- The outer loop ends by its condition or by a `break`, and never for want of turns. -/
theorem scanTasks_finishes {turns : ℕ} {s : Scan}
    (hturns : req.scanLimit ≤ s.counters.tasksExamined + turns) :
    Prog.wp dev (fun _ => True) (fun s' _ =>
      s'.exportTasks.length < req.room → s'.counters.tasksExamined < req.scanLimit →
        s'.queueExhausted = true)
      (fun _ _ => True) (scanTasks req turns s) c := by
  induction turns generalizing s c with
  | zero => exact fun _ h => absurd h (by omega)
  | succ turns ih =>
    rw [scanTasks]
    by_cases hgo : s.exportTasks.length < req.room ∧ s.counters.tasksExamined < req.scanLimit
    swap
    · rw [if_neg hgo]
      exact fun h h' => absurd ⟨h, h'⟩ hgo
    rw [if_pos hgo]
    refine Prog.wp_seq (Prog.wp_mono (fun p c' h => ?_) (fun _ _ => id) (probeTasks_examines _ _))
    simp only [List.length_nil] at h
    obtain ⟨-, hprobes, hexamined⟩ := h
    have hexamined := hexamined (by omega) (by omega)
    dsimp only
    split_ifs with hempty hqueue
    · exact fun _ _ => hqueue
    · refine ih ?_
      have hmore := hexamined.resolve_left (by simpa using hqueue)
      simp only
      omega
    · have hpos := List.length_pos_iff.2 hempty
      refine ih ?_
      simp only
      omega
    · have hpos := List.length_pos_iff.2 hempty
      refine Prog.wp_seq fun choice => ⟨trivial, ?_⟩
      refine Prog.wp_seq (Prog.wp_mono (fun s' c' h => ?_) (fun _ _ => id)
        (placeProbes_examines _ _ _))
      obtain ⟨hsame, hqueue'⟩ := h
      split_ifs with hqueue
      · exact fun _ _ => hqueue
      · refine ih ?_
        rw [hsame]
        simp only
        omega

end

end ResearchLab.Validation.DueTasks
