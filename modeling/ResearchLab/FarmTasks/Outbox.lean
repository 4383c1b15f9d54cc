import Mathlib
import ResearchLab.ComputeQueue.Queue
import ResearchLab.FarmTasks.Store

/-!
# The materialization outbox

The calls of `FarmTasksDB` that tie a claimed task to a job of the compute queue. The marks
check their authority outside the transaction of their update, so they are two functions.
-/
namespace ResearchLab.FarmTasks
open Foundation

/-- The id that the coordinator gives to the intent of a claim. -/
def materializationIdOf (tid fence : ℕ) : String := s!"task:{tid}:fence:{fence}"

def awaitingWorker : String := "materialized_awaiting_worker"

def OutboxState.open (state : OutboxState) : Bool :=
  decide (state = .pending ∨ state = .dispatched)

/-- The store holds the running task under the fence it recorded. -/
def liveClaim (tid : ℕ) (store : Store) (now : ℚ) (row : TaskRow) : Bool :=
  decide (row.state = .running ∧ row.claimOwner.getD "" = store.ownerId ∧
    store.claims tid = some row.fencingToken ∧ now < row.claimExpiresAt.getD 0)

structure Intent where
  materializationId : String
  specPath : String
  specDigest : String
  specJson : String
  priority : ℤ

def supersede (tid fence : ℕ) (now : ℚ) (outbox : Table String OutboxRow) :
    Table String OutboxRow :=
  outbox.modifyWhere
    (fun o => o.taskId = tid ∧ o.state.open ∧ o.taskFencingToken ≠ fence)
    (fun o => { o with state := .superseded, updatedAt := now })

def prepareMaterialization (tid : ℕ) (intent : Intent) (now : Option ℚ) (clock : Readings)
    (store : Store) (db : TaskDb) : Except TaskError Unit × Store × TaskDb :=
  let before := effectiveNow store now clock.first
  let current := effectiveNow (store.advance before) (some before) clock.second
  let store := store.advance current
  match db.tasks.row tid with
  | none => (.error (.key "unknown task"), store, db)
  | some row =>
      if !liveClaim tid store current row then
        (.error (.stale "stale claim for task"), store, db)
      else
        match db.outbox.row intent.materializationId with
        | some existing =>
            if existing.taskId ≠ tid ∨ existing.taskFencingToken ≠ row.fencingToken ∨
                existing.specDigest ≠ intent.specDigest ∨
                existing.specPath ≠ intent.specPath then
              (.error (.value "materialization id is already bound to different content"),
                store, db)
            else (.ok (), store, db)
        | none =>
            (.ok (), store, { db with
              outbox := (supersede tid row.fencingToken current db.outbox).insert
                intent.materializationId
                { taskId := tid, taskFencingToken := row.fencingToken,
                  specPath := intent.specPath, specDigest := intent.specDigest,
                  specJson := intent.specJson, priority := intent.priority,
                  state := .pending, createdAt := current, updatedAt := current } })

def parkedTask (queueJobId : ℕ) (now : ℚ) (row : TaskRow) : TaskRow :=
  { row with
    state := .deferred, materializedQueueJobId := some queueJobId,
    machineReason := awaitingWorker, updatedAt := now, deferredUntil := none,
    claimOwner := none, claimExpiresAt := none, mutationProtocol := "fenced.v2",
    mutationSeq := row.mutationSeq + 1 }

def acknowledge (queueJobId : ℕ) (now : ℚ) (o : OutboxRow) : OutboxRow :=
  { o with
    state := .acknowledged, queueJobId := some queueJobId, updatedAt := now, specJson := "" }

def commitMaterialization (tid : ℕ) (materializationId : String) (queueJobId : ℕ)
    (now : Option ℚ) (clock : Readings) (store : Store) (db : TaskDb) :
    Except TaskError Unit × Store × TaskDb :=
  let before := effectiveNow store now clock.first
  let current := effectiveNow (store.advance before) (some before) clock.second
  let store := store.advance current
  match db.tasks.row tid, (db.outbox.row materializationId).filter (·.taskId = tid) with
  | some row, some outbox =>
      if !liveClaim tid store current row ∨ outbox.taskFencingToken ≠ row.fencingToken then
        (.error (.stale "stale materialization claim for task"), store, db)
      else
        match db.tasks.compareAndSet tid
          (fun r => heldTask store.ownerId row.fencingToken r ∧
            (∃ e ∈ r.claimExpiresAt, current < e) ∧ r.mutationSeq = row.mutationSeq)
          (parkedTask queueJobId current) with
        | none => (.error (.stale "task changed during materialization commit"), store, db)
        | some tasks =>
            match db.outbox.compareAndSet materializationId
              (fun o => o.taskId = tid ∧ o.taskFencingToken = row.fencingToken ∧ o.state.open)
              (acknowledge queueJobId current) with
            | none =>
                (.error (.stale "materialization outbox changed during commit"), store, db)
            | some outbox =>
                (.ok (), store.setClaim tid none,
                  recordTransition { db with tasks, outbox }
                    ⟨tid, .running, .deferred, awaitingWorker, store.ownerId,
                      row.fencingToken, row.mutationSeq + 1, current⟩)
  | _, _ => (.error (.stale "materialization intent is missing or mismatched"), store, db)

/-- How a compute job ended. -/
inductive QueueOutcome
  | completed | failed
  deriving DecidableEq

def QueueOutcome.target : QueueOutcome → TaskState
  | .completed => .completed
  | .failed => .failed

def QueueOutcome.reason : QueueOutcome → String
  | .completed => "compute_completed"
  | .failed => "compute_failed"

/-- The task waits, unclaimed, for its compute job. -/
def parked (row : TaskRow) : Bool :=
  decide (row.state = .deferred ∧ row.machineReason = awaitingWorker ∧
    row.claimOwner = none ∧ row.claimExpiresAt = none)

structure FinishArgs where
  materializationId : String
  queueJobId : ℕ
  outcome : QueueOutcome
  lastResultRef : Option String := none
  runDirLabel : Option String := none

def finishedTask (args : FinishArgs) (now : ℚ) (row : TaskRow) : TaskRow :=
  { row with
    state := args.outcome.target, machineReason := args.outcome.reason, updatedAt := now,
    lastResultRef := args.lastResultRef, runDirLabel := args.runDirLabel,
    materializedQueueJobId := some args.queueJobId, deferredUntil := none,
    mutationProtocol := "fenced.v2", mutationSeq := row.mutationSeq + 1 }

def finishMaterializedTask (tid : ℕ) (args : FinishArgs) (now : Option ℚ) (clock : Readings)
    (store : Store) (db : TaskDb) : Except TaskError Unit × Store × TaskDb :=
  let before := effectiveNow store now clock.first
  let current := effectiveNow (store.advance before) (some before) clock.second
  let store := store.advance current
  match db.tasks.row tid, (db.outbox.row args.materializationId).filter fun o =>
      o.taskId = tid ∧ o.queueJobId = some args.queueJobId ∧ o.state = .acknowledged with
  | some row, some outbox =>
      if !parked row ∨ row.materializedQueueJobId.getD 0 ≠ args.queueJobId ∨
          row.fencingToken ≠ outbox.taskFencingToken then
        (.error (.stale "materialized task generation changed for task"), store, db)
      else
        match db.tasks.compareAndSet tid
          (fun r => parked r ∧ r.fencingToken = row.fencingToken ∧
            r.mutationProtocol = "fenced.v2" ∧ r.mutationSeq = row.mutationSeq)
          (finishedTask args current) with
        | none =>
            (.error (.stale "materialized task changed during finish for task"), store, db)
        | some tasks =>
            (.ok (), store,
              recordTransition { db with tasks }
                ⟨tid, .deferred, args.outcome.target, args.outcome.reason, store.ownerId,
                  row.fencingToken, row.mutationSeq + 1, current⟩)
  | _, _ => (.error (.stale "materialized task generation changed for task"), store, db)

/-! ## Marks -/

/-- `_assert_materialization_authority`. -/
def assertMaterializationAuthority (materializationId : String) (now : ℚ) (store : Store)
    (db : TaskDb) : Except TaskError Unit :=
  match db.outbox.row materializationId with
  | none => .error (.stale "materialization intent is missing")
  | some o =>
      match db.tasks.row o.taskId with
      | none => .error (.stale "materialization intent is missing")
      | some row =>
          if row.claimOwner.getD "" ≠ store.ownerId ∨
              row.fencingToken ≠ o.taskFencingToken ∨
              store.claims o.taskId ≠ some o.taskFencingToken ∨
              row.claimExpiresAt.getD 0 ≤ now then
            .error (.stale "materialization intent has a stale task fence")
          else .ok ()

/-- `mark_materialization_dispatched` and `mark_materialization_ambiguous`. -/
inductive Mark
  | dispatched (queueJobId : ℕ)
  | ambiguous

def Mark.apply : Mark → ℚ → OutboxRow → OutboxRow
  | .dispatched job, now, o =>
      { o with state := .dispatched, queueJobId := some job, updatedAt := now }
  | .ambiguous, now, o => { o with state := .ambiguous, updatedAt := now }

def Mark.refusal : Mark → String
  | .dispatched _ => "materialization cannot be marked dispatched"
  | .ambiguous => "materialization cannot be marked ambiguous"

def markMaterializationCheck (materializationId : String) (now : Option ℚ) (observed : ℚ)
    (store : Store) (db : TaskDb) : Except TaskError Unit × Store :=
  let current := effectiveNow store now observed
  let store := store.advance current
  (assertMaterializationAuthority materializationId current store db, store)

def markMaterializationWrite (materializationId : String) (mark : Mark) (observed : ℚ)
    (store : Store) (db : TaskDb) : Except TaskError Unit × Store × TaskDb :=
  let current := effectiveNow store (some store.authorityTimeFloor) observed
  let store := store.advance current
  match db.outbox.compareAndSet materializationId
    (fun o => o.state.open ∧
      ((db.tasks.row o.taskId).map fun t => decide (heldTask store.ownerId o.taskFencingToken t ∧
        ∃ e ∈ t.claimExpiresAt, current < e)).getD false)
    (mark.apply current) with
  | none => (.error (.stale mark.refusal), store, db)
  | some outbox => (.ok (), store, { db with outbox })

/-! ## Adoption after an expired claim -/

structure AdoptArgs where
  taskId : ℕ
  expectedFence : ℕ
  expectedMutationSeq : ℕ
  materializationId : String
  queueJobId : ℕ
  specPath : String
  specDigest : String
  expectedQueueStatus : ComputeQueue.JobStatus

/-- The binding of the compute database is the one the plan expects. -/
def computeBindingHolds (args : AdoptArgs) (compute : ComputeQueue.QueueDb) : Bool :=
  match ComputeQueue.bindingOf compute args.materializationId with
  | none => false
  | some (m, q) =>
      decide (m.jobId = args.queueJobId ∧ m.specPath = args.specPath ∧
        m.specDigest = args.specDigest ∧ q.status = args.expectedQueueStatus ∧
        q.materializationId.getD "" = args.materializationId ∧
        q.materializationDigest.getD "" = args.specDigest)

def alreadyAdopted (args : AdoptArgs) (row : TaskRow) (outbox : OutboxRow) : Bool :=
  decide (row.spec.taskType = "run_sweep" ∧ parked row ∧
    row.fencingToken = args.expectedFence ∧ row.mutationSeq = args.expectedMutationSeq + 1 ∧
    row.materializedQueueJobId.getD 0 = args.queueJobId ∧
    outbox.taskFencingToken = args.expectedFence ∧ outbox.state = .acknowledged ∧
    outbox.queueJobId.getD 0 = args.queueJobId ∧ outbox.specPath = args.specPath ∧
    outbox.specDigest = args.specDigest)

def activeOutboxes (tid : ℕ) (db : TaskDb) : ℕ :=
  (db.outbox.toList.filter fun o => o.taskId = tid ∧ o.state.open).length

def adoptable (args : AdoptArgs) (now : ℚ) (row : TaskRow) (outbox : OutboxRow)
    (db : TaskDb) : Bool :=
  decide (row.spec.taskType = "run_sweep" ∧ row.state = .running ∧ row.claimOwner ≠ none ∧
    row.claimExpiresAt.getD 0 ≤ now ∧ row.fencingToken = args.expectedFence ∧
    row.mutationProtocol = "fenced.v2" ∧ row.mutationSeq = args.expectedMutationSeq ∧
    row.materializedQueueJobId = none ∧ outbox.taskFencingToken = args.expectedFence ∧
    outbox.state.open ∧ (∀ job ∈ outbox.queueJobId, job = args.queueJobId) ∧
    outbox.specPath = args.specPath ∧ outbox.specDigest = args.specDigest ∧
    activeOutboxes args.taskId db = 1)

def adoptExpiredMaterialization (args : AdoptArgs) (compute : ComputeQueue.QueueDb)
    (now : Option ℚ) (clock : Readings) (store : Store) (db : TaskDb) :
    Except TaskError ℕ × Store × TaskDb :=
  let before := effectiveNow store now clock.first
  let current := effectiveNow (store.advance before) (some before) clock.second
  let store := store.advance current
  match db.tasks.row args.taskId,
      (db.outbox.row args.materializationId).filter (·.taskId = args.taskId) with
  | some row, some outbox =>
      if !computeBindingHolds args compute then
        (.error (.stale "expired materialization compute binding changed"), store, db)
      else if alreadyAdopted args row outbox then (.ok 0, store, db)
      else if !adoptable args current row outbox db then
        (.error (.stale "expired materialization recovery plan is stale"), store, db)
      else
        match db.tasks.compareAndSet args.taskId
          (fun r => r.spec.taskType = "run_sweep" ∧ r.state = .running ∧
            r.claimOwner ≠ none ∧ (∃ e ∈ r.claimExpiresAt, e ≤ current) ∧
            r.fencingToken = args.expectedFence ∧ r.mutationProtocol = "fenced.v2" ∧
            r.mutationSeq = args.expectedMutationSeq ∧ r.materializedQueueJobId = none)
          (parkedTask args.queueJobId current),
          db.outbox.compareAndSet args.materializationId
          (fun o => o.taskId = args.taskId ∧ o.taskFencingToken = args.expectedFence ∧
            o.state.open ∧ o.specPath = args.specPath ∧ o.specDigest = args.specDigest)
          (acknowledge args.queueJobId current) with
        | some tasks, some outbox =>
            (.ok 1, store.setClaim args.taskId none,
              recordTransition { db with tasks, outbox }
                ⟨args.taskId, .running, .deferred,
                  "recovered_existing_compute_materialization", row.claimOwner.getD "",
                  args.expectedFence, args.expectedMutationSeq + 1, current⟩)
        | _, _ =>
            (.error (.stale "expired materialization changed during recovery"), store, db)
  | _, _ => (.error (.stale "expired materialization recovery identity changed"), store, db)

end ResearchLab.FarmTasks
