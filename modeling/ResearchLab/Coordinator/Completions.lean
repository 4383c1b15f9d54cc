import Mathlib
import ResearchLab.Foundation.Json
import ResearchLab.FarmTasks.Outbox

/-!
# Completions

`_sync_completions` of the coordinator: it looks at every task that waits for its compute job
and, once the job has ended, ends the task and enqueues the classification of the result. A
`SyncPoint` is where a call stands between two of its statements, with what it has read so far.
-/
namespace ResearchLab.Coordinator
open Foundation FarmTasks

/-- The row that the scan read waits, parked; otherwise it is a legacy row under a claim. -/
def isParked (task : TaskRow) : Bool := decide (task.state = .deferred)

/-- What a look at a waiting task leads to. -/
inductive Look (α : Type)
  | found (a : α)
  | passed
  | fatal (message : String)

/-- A parked task has to be found intact; a legacy one is passed over. -/
def refuse {α : Type} (task : TaskRow) (message : String) : Look α :=
  if isParked task then .fatal message else .passed

def waitingTasks (state : TaskState) (db : TaskDb) : List TaskRow :=
  (db.tasks.toList.filter fun r => r.state = state ∧ r.spec.taskType = "run_sweep" ∧
    r.machineReason = awaitingWorker).mergeSort fun a b => decide (a.taskId ≤ b.taskId)

/-- `ORDER BY updated_at DESC LIMIT 1` over the acknowledged intents of the task and job. -/
def acknowledgedIntent (tid job : ℕ) (db : TaskDb) : Option (String × OutboxRow) :=
  firstMin (fun a b => decide (b.2.updatedAt < a.2.updatedAt))
    (db.outbox.entries.filter fun e =>
      e.2.taskId = tid ∧ e.2.queueJobId = some job ∧ e.2.state = .acknowledged)

/-- A waiting task with its job and its acknowledged intent. -/
structure Binding where
  task : TaskRow
  job : ℕ
  materializationId : String
  intent : OutboxRow

def lostBinding : String := "parked materialization lost its acknowledged fence binding"

def lookIntent (task : TaskRow) (db : TaskDb) : Look Binding :=
  match task.materializedQueueJobId.filter (· ≠ 0) with
  | none => refuse task "parked materialization is missing its compute job binding"
  | some job =>
      match acknowledgedIntent task.taskId job db with
      | none => refuse task lostBinding
      | some (id, intent) =>
          if intent.taskFencingToken ≠ task.fencingToken then refuse task lostBinding
          else .found ⟨task, job, id, intent⟩

abbrev ComputeRow := ComputeQueue.MaterializationRow × ComputeQueue.JobRow

def lookCompute (b : Binding) (compute : ComputeQueue.QueueDb) : Look ComputeRow :=
  match (ComputeQueue.bindingOf compute b.materializationId).filter (·.1.jobId = b.job) with
  | none => refuse b.task "parked materialization is missing its exact compute row"
  | some row => .found row

def lookSpec (sha256 : String → String) (b : Binding) (row : ComputeRow)
    (files : String → Option String) : Look Unit :=
  match files row.2.specPath with
  | none => refuse b.task "parked materialization spec is unavailable"
  | some payload =>
      if "sha256:" ++ sha256 payload ≠ b.intent.specDigest then
        refuse b.task "parked materialization spec digest changed"
      else if row.1.specDigest ≠ b.intent.specDigest ∨
          row.2.materializationDigest.getD "" ≠ b.intent.specDigest then
        refuse b.task "parked materialization queue binding changed"
      else .found ()

/-- How the compute job ended, if it has ended. -/
def ended : ComputeQueue.JobStatus → Option QueueOutcome
  | .completed => some .completed
  | .failed => some .failed
  | _ => none

def changedDuring : QueueOutcome → String
  | .completed => "parked materialization changed during completion"
  | .failed => "parked materialization changed during failure sync"

/-- The `finish_materialized_task` of a parked task. -/
def finishArgs (b : Binding) (outcome : QueueOutcome) (label : Option String) : FinishArgs where
  materializationId := b.materializationId
  queueJobId := b.job
  outcome := outcome
  lastResultRef := if outcome = .completed then label else none
  runDirLabel := if outcome = .completed then label else none

/-- The `complete_task` or `fail_task` of a legacy task. -/
def legacyRequest (b : Binding) (label : Option String) : QueueOutcome → StateRequest
  | .completed => .complete label label (some b.job) "compute_completed"
  | .failed => .fail "compute_failed"

def classifyKey (job : ℕ) : String := s!"classify::{job}"

def classifyPayload (task : TaskRow) (label : Option String) : String :=
  String.ofList (Json.dumps (Json.plain fun x : Empty => nomatch x) (.obj
    [("run_dir_label", .ofOption label), ("timeframe", .ofOption task.spec.timeframe),
      ("data_fingerprint", .ofOption task.spec.dataFingerprint)]))

def classifyArgs (b : Binding) (label : Option String) : EnqueueArgs where
  spec :=
    { taskKey := classifyKey b.job
      taskType := "classify_result"
      symbol := b.task.spec.symbol
      timeframe := b.task.spec.timeframe
      family := b.task.spec.family
      dataFingerprint := b.task.spec.dataFingerprint
      payloadJson := classifyPayload b.task label }
  priority := 100
  sourceEventId := none
  state := .queued
  machineReason := ""
  deferredUntil := none
  ttlSeconds := 12 * 3600

/-! ## The call, statement by statement -/

inductive SyncPoint
  | scan
  | scanLegacy (parked : List TaskRow)
  | loop (waiting : List TaskRow)
  | compute (b : Binding) (rest : List TaskRow)
  | spec (b : Binding) (row : ComputeRow) (rest : List TaskRow)
  | renew (b : Binding) (row : ComputeRow) (rest : List TaskRow)
  | settle (b : Binding) (row : ComputeRow) (rest : List TaskRow)
  | write (b : Binding) (outcome : QueueOutcome) (label : Option String) (seen : TaskRow)
      (rest : List TaskRow)
  | enqueue (b : Binding) (label : Option String) (rest : List TaskRow)
  | insert (b : Binding) (label : Option String) (rest : List TaskRow)
  | reread (b : Binding) (label : Option String) (rest : List TaskRow)
  | lower (tid : ℕ) (b : Binding) (label : Option String) (rest : List TaskRow)

inductive SyncError
  | fatal (message : String)
  | task (error : TaskError)

inductive SyncReply
  | at (next : SyncPoint)
  | returned
  | raised (error : SyncError)

def replyLook {α : Type} (rest : List TaskRow) (next : α → SyncPoint) : Look α → SyncReply
  | .found a => .at (next a)
  | .passed => .at (.loop rest)
  | .fatal message => .raised (.fatal message)

/-- A call that lost its task: fatal for a parked one, and the next one for a legacy one. -/
def replyStale (b : Binding) (outcome : QueueOutcome) (rest : List TaskRow) :
    TaskError → SyncReply
  | .stale _ =>
      if isParked b.task then .raised (.fatal (changedDuring outcome)) else .at (.loop rest)
  | e => .raised (.task e)

/-- After the task has ended: a completed job has a classification to enqueue. -/
def afterEnd (b : Binding) (label : Option String) (rest : List TaskRow) :
    QueueOutcome → SyncPoint
  | .completed => .enqueue b label rest
  | .failed => .loop rest

/-- The classification is under way already, perhaps with a lower priority. -/
def afterActive (b : Binding) (label : Option String) (active : TaskRow)
    (rest : List TaskRow) : SyncReply :=
  if (classifyArgs b label).priority < active.priority then .at (.lower active.taskId b label rest)
  else .at (.loop rest)

/-- What a call works on. -/
structure Sources where
  sha256 : String → String
  files : String → Option String
  compute : ComputeQueue.QueueDb

def settle (now : ℚ) (b : Binding) (row : ComputeRow) (rest : List TaskRow) (clock : Readings)
    (store : Store) (db : TaskDb) : SyncReply × Store × TaskDb :=
  match ended row.2.status with
  | none => (.at (.loop rest), store, db)
  | some outcome =>
      let label := row.2.runDirLabel
      if isParked b.task then
        match finishMaterializedTask b.task.taskId (finishArgs b outcome label) (some now) clock
          store db with
        | (.ok _, store, db) => (.at (afterEnd b label rest outcome), store, db)
        | (.error e, store, db) => (replyStale b outcome rest e, store, db)
      else
        match setStateCheck b.task.taskId (legacyRequest b label outcome).target (some now)
          clock.first store db with
        | (.ok seen, store) => (.at (.write b outcome label seen rest), store, db)
        | (.error e, store) => (replyStale b outcome rest e, store, db)

def syncStep (src : Sources) (now : ℚ) (clock : Readings) (store : Store) (db : TaskDb) :
    SyncPoint → SyncReply × Store × TaskDb
  | .scan => (.at (.scanLegacy (waitingTasks .deferred db)), store, db)
  | .scanLegacy parked => (.at (.loop (parked ++ waitingTasks .running db)), store, db)
  | .loop [] => (.returned, store, db)
  | .loop (task :: rest) => (replyLook rest (.compute · rest) (lookIntent task db), store, db)
  | .compute b rest => (replyLook rest (.spec b · rest) (lookCompute b src.compute), store, db)
  | .spec b row rest =>
      let next := if isParked b.task then SyncPoint.settle b row rest else .renew b row rest
      (replyLook rest (fun _ => next) (lookSpec src.sha256 b row src.files), store, db)
  | .renew b row rest =>
      match store.claims b.task.taskId with
      | none => (.at (.loop rest), store, db)
      | some fence =>
          match renewTaskClaimToken b.task.taskId fence none (some now) clock store db with
          | (.ok _, store, db) => (.at (.settle b row rest), store, db)
          | (.error (.stale _), store, db) => (.at (.loop rest), store, db)
          | (.error e, store, db) => (.raised (.task e), store, db)
  | .settle b row rest => settle now b row rest clock store db
  | .write b outcome label seen rest =>
      match setStateWrite (legacyRequest b label outcome) b.task.taskId seen clock.first store
        db with
      | (.ok _, store, db) => (.at (afterEnd b label rest outcome), store, db)
      | (.error e, store, db) => (replyStale b outcome rest e, store, db)
  | .enqueue b label rest =>
      let args := classifyArgs b label
      match activeTask args.spec.taskKey db with
      | some active => (afterActive b label active rest, store, db)
      | none =>
          match (lastCompleted args.spec.taskKey db).filter fun r =>
              now - r.updatedAt < args.ttlSeconds with
          | some _ => (.at (.loop rest), store, db)
          | none => (.at (.insert b label rest), store, db)
  | .insert b label rest =>
      match insertTask (classifyArgs b label) now db with
      | (.ok _, db) => (.at (.loop rest), store, db)
      | (.error _, db) => (.at (.reread b label rest), store, db)
  | .reread b label rest =>
      match activeTask (classifyKey b.job) db with
      | some active => (afterActive b label active rest, store, db)
      | none => (.raised (.task .integrity), store, db)
  | .lower tid b label rest =>
      let args := classifyArgs b label
      (.at (.loop rest), store, lowerPriority tid args.priority args.sourceEventId now db)

end ResearchLab.Coordinator
