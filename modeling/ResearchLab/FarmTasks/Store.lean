import Mathlib
import ResearchLab.Foundation.Clock
import ResearchLab.Foundation.Table

/-!
# The task store of the farm

The tables `tasks`, `task_transitions` and `farm_meta` of the brain database and the calls of
`FarmTasksDB` on them. `_set_state` reads the task outside its write transaction, so it is two
functions, `setStateCheck` and `setStateWrite`; every other call is one transaction.
-/
namespace ResearchLab.FarmTasks
open Foundation

inductive TaskState
  | queued | running | deferred | blocked | completed | skipped | failed
  deriving DecidableEq

/-- `ACTIVE_STATES` and `TERMINAL_STATES`. -/
def TaskState.active (state : TaskState) : Bool :=
  decide (state = .queued ∨ state = .running ∨ state = .deferred ∨ state = .blocked)

def TaskState.terminal (state : TaskState) : Bool :=
  decide (state = .completed ∨ state = .skipped ∨ state = .failed)

/-- The columns that no call changes after the insertion. -/
structure TaskSpec where
  taskKey : String
  taskType : String
  symbol : Option String := none
  assetGroup : Option String := none
  timeframe : Option String := none
  family : Option String := none
  paramsHash : Option String := none
  dataFingerprint : Option String := none
  dependsOn : Option ℕ := none
  payloadJson : String := "\x7b\x7d"

structure TaskRow where
  taskId : ℕ
  spec : TaskSpec
  state : TaskState
  priority : ℤ
  machineReason : String
  deferredUntil : Option ℚ
  attempts : ℕ := 0
  sourceEventId : Option String
  materializedQueueJobId : Option ℕ := none
  lastResultRef : Option String := none
  runDirLabel : Option String := none
  createdAt : ℚ
  updatedAt : ℚ
  claimOwner : Option String := none
  claimExpiresAt : Option ℚ := none
  fencingToken : ℕ := 0
  mutationProtocol : String
  mutationSeq : ℕ := 0

/-- A row of `task_transitions`; its `transition_id` is its place in the log. -/
structure TransitionRow where
  taskId : ℕ
  fromState : TaskState
  toState : TaskState
  reason : String
  ownerId : String
  fencingToken : ℕ
  mutationSeq : ℕ
  transitionedAt : ℚ

inductive OutboxState
  | pending | dispatched | ambiguous | superseded | acknowledged
  deriving DecidableEq

structure OutboxRow where
  taskId : ℕ
  taskFencingToken : ℕ
  specPath : String
  specDigest : String
  specJson : String
  priority : ℤ
  state : OutboxState
  queueJobId : Option ℕ := none
  createdAt : ℚ
  updatedAt : ℚ

/-- The brain database. Of `farm_meta` it keeps the keys `claim_fairness:..` and
`claim_budget:..`. -/
structure TaskDb where
  tasks : Table ℕ TaskRow
  transitions : List TransitionRow
  outbox : Table String OutboxRow
  claimFairness : String → ℕ
  claimBudgetUsed : String → Bool

def TaskDb.empty : TaskDb := ⟨.empty, [], .empty, fun _ => 0, fun _ => false⟩

inductive TaskError
  | stale (message : String)
  | key (message : String)
  | value (message : String)
  | integrity
  deriving DecidableEq

/-- An open `FarmTasksDB`: its owner, its clock floor and the fences `_claims` it recorded. -/
structure Store where
  ownerId : String
  leaseSeconds : ℚ
  authorityTimeFloor : ℚ
  claims : ℕ → Option ℕ

def Store.open (ownerId : String) (leaseSeconds floor : ℚ) : Store :=
  ⟨ownerId, leaseSeconds, floor, fun _ => none⟩

/-- `_effective_now`, which also raises the floor of the store to its result. -/
def effectiveNow (store : Store) (supplied : Option ℚ) (observed : ℚ) : ℚ :=
  flooredTime store.authorityTimeFloor supplied observed

def Store.advance (store : Store) (current : ℚ) : Store :=
  { store with authorityTimeFloor := current }

def Store.setClaim (store : Store) (tid : ℕ) (fence : Option ℕ) : Store :=
  { store with claims := Function.update store.claims tid fence }

@[simp] theorem Store.advance_ownerId (store : Store) (t : ℚ) :
    (store.advance t).ownerId = store.ownerId := rfl

@[simp] theorem Store.advance_claims (store : Store) (t : ℚ) :
    (store.advance t).claims = store.claims := rfl

@[simp] theorem Store.advance_floor (store : Store) (t : ℚ) :
    (store.advance t).authorityTimeFloor = t := rfl

@[simp] theorem Store.setClaim_ownerId (store : Store) (tid : ℕ) (fence : Option ℕ) :
    (store.setClaim tid fence).ownerId = store.ownerId := rfl

@[simp] theorem Store.setClaim_claims (store : Store) (tid : ℕ) (fence : Option ℕ) :
    (store.setClaim tid fence).claims = Function.update store.claims tid fence := rfl

def recordTransition (db : TaskDb) (t : TransitionRow) : TaskDb :=
  { db with transitions := db.transitions ++ [t] }

/-- Another active row holds the key: the unique index `idx_tasks_active_key` refuses. -/
def keyTaken (db : TaskDb) (taskKey : String) (except : Option ℕ) : Bool :=
  db.tasks.toList.any fun r =>
    r.spec.taskKey = taskKey ∧ r.state.active ∧ except ≠ some r.taskId

/-! ## Enqueueing -/

structure EnqueueArgs where
  spec : TaskSpec
  priority : ℤ
  sourceEventId : Option String
  state : TaskState
  machineReason : String
  deferredUntil : Option ℚ
  ttlSeconds : ℚ

def newTask (args : EnqueueArgs) (tid : ℕ) (now : ℚ) : TaskRow where
  taskId := tid
  spec := args.spec
  state := args.state
  priority := args.priority
  machineReason := args.machineReason
  deferredUntil := args.deferredUntil
  sourceEventId := args.sourceEventId
  createdAt := now
  updatedAt := now
  mutationProtocol := "fenced.v2"

/-- The `INSERT` of `enqueue_task`. -/
def insertTask (args : EnqueueArgs) (now : ℚ) (db : TaskDb) : Except TaskError ℕ × TaskDb :=
  if args.state.active ∧ keyTaken db args.spec.taskKey none then (.error .integrity, db)
  else
    let tid := db.tasks.nextKey
    (.ok tid, { db with tasks := db.tasks.insert tid (newTask args tid now) })

def reprioritizedTask (priority : ℤ) (sourceEventId : Option String) (now : ℚ)
    (row : TaskRow) : TaskRow :=
  { row with
    priority := priority, sourceEventId := sourceEventId.or row.sourceEventId,
    updatedAt := now }

/-- The `UPDATE` of `enqueue_task` on the active task of the key. -/
def lowerPriority (tid : ℕ) (priority : ℤ) (sourceEventId : Option String) (now : ℚ)
    (db : TaskDb) : TaskDb :=
  { db with tasks := db.tasks.modify tid (reprioritizedTask priority sourceEventId now) }

/-- The priorities 1 to 4 of the old scale. -/
def legacyPriority (row : TaskRow) : Bool := 1 ≤ row.priority ∧ row.priority ≤ 4

def scaledTask (row : TaskRow) : TaskRow :=
  { row with
    priority :=
      if row.priority = 1 then 20 else if row.priority = 2 then 30 else if row.priority = 3 then 40
      else if row.priority = 4 then 90 else row.priority }

/-- `_migrate_priority_scale`, which every store that may write runs when it is opened. -/
def migratePriorityScale (db : TaskDb) : TaskDb :=
  { db with tasks := db.tasks.modifyWhere legacyPriority scaledTask }

theorem scaledTask_eq_self {row : TaskRow} (h : legacyPriority row = false) :
    scaledTask row = row := by
  have hnot : ¬ (1 ≤ row.priority ∧ row.priority ≤ 4) := of_decide_eq_false h
  unfold scaledTask
  rw [if_neg (by omega), if_neg (by omega), if_neg (by omega), if_neg (by omega)]

theorem not_legacyPriority_scaledTask (row : TaskRow) :
    legacyPriority (scaledTask row) = false := by
  refine decide_eq_false ?_
  unfold scaledTask
  dsimp only
  split_ifs <;> omega

theorem migratePriorityScale_row (db : TaskDb) (k : ℕ) :
    (migratePriorityScale db).tasks.row k = (db.tasks.row k).map scaledTask := by
  refine Option.map_congr fun row _ => ?_
  split_ifs with h
  · rfl
  · exact (scaledTask_eq_self (by simpa using h)).symm

def activeTask (taskKey : String) (db : TaskDb) : Option TaskRow :=
  db.tasks.toList.find? fun r => r.spec.taskKey = taskKey ∧ r.state.active

/-- `ORDER BY updated_at DESC LIMIT 1` over the completed tasks of the key. -/
def lastCompleted (taskKey : String) (db : TaskDb) : Option TaskRow :=
  firstMin (fun a b => decide (b.updatedAt < a.updatedAt))
    (db.tasks.toList.filter fun r => r.spec.taskKey = taskKey ∧ r.state = .completed)

def enqueueTask (args : EnqueueArgs) (now : ℚ) (db : TaskDb) :
    Except TaskError (ℕ × Bool) × TaskDb :=
  match activeTask args.spec.taskKey db with
  | some active =>
      if args.priority < active.priority then
        (.ok (active.taskId, false),
          lowerPriority active.taskId args.priority args.sourceEventId now db)
      else (.ok (active.taskId, false), db)
  | none =>
      match (lastCompleted args.spec.taskKey db).filter fun r =>
          now - r.updatedAt < args.ttlSeconds with
      | some done => (.ok (done.taskId, false), db)
      | none =>
          match insertTask args now db with
          | (.ok tid, db') => (.ok (tid, true), db')
          | (.error e, db') => (.error e, db')

/-! ## Claiming -/

structure ClaimArgs where
  taskTypes : List String := []
  now : Option ℚ := none
  minimumCreatedAt : Option ℚ := none
  fairnessKey : Option String := none
  freshnessWindowSeconds : Option ℚ := none
  freshEvery : ℕ := 2
  claimBudgetKey : Option String := none

/-- The named fairness lane of the call with its window, or what is wrong with it. -/
def fairLane (args : ClaimArgs) : Except TaskError (Option (String × ℚ)) :=
  match args.fairnessKey, args.freshnessWindowSeconds with
  | none, none => .ok none
  | none, some _ =>
      .error (.value "fairness_key and freshness_window_seconds must be provided together")
  | some _, none =>
      .error (.value "fairness_key and freshness_window_seconds must be provided together")
  | some key, some window =>
      if key = "" then
        .error (.value "fairness_key and freshness_window_seconds must be provided together")
      else if window ≤ 0 ∨ args.freshEvery < 2 then
        .error (.value "freshness_window_seconds must be positive and fresh_every at least 2")
      else .ok (some (key, window))

def completedTask (db : TaskDb) (tid : ℕ) : Bool :=
  ((db.tasks.row tid).map fun r => decide (r.state = .completed)).getD false

def eligible (args : ClaimArgs) (now : ℚ) (db : TaskDb) (row : TaskRow) : Bool :=
  decide ((row.state = .queued ∨ (row.state = .deferred ∧ ∃ u ∈ row.deferredUntil, u ≤ now)) ∧
    (∀ d ∈ row.spec.dependsOn, completedTask db d) ∧
    (args.taskTypes = [] ∨ row.spec.taskType ∈ args.taskTypes) ∧
    (∀ c ∈ args.minimumCreatedAt, c ≤ row.createdAt))

/-- 0 for the rows that a fair lane prefers at its cursor, 1 for the others. -/
def laneRank (lane : Option (String × ℚ)) (freshEvery : ℕ) (now : ℚ) (db : TaskDb)
    (row : TaskRow) : ℕ :=
  match lane with
  | none => 0
  | some (key, window) =>
      if db.claimFairness key % freshEvery = 0 then
        if now - window ≤ row.createdAt then 0 else 1
      else if row.createdAt < now - window then 0 else 1

def claimOrder (rank : TaskRow → ℕ) (a b : TaskRow) : Bool :=
  decide (a.priority < b.priority ∨ (a.priority = b.priority ∧
    (rank a < rank b ∨ (rank a = rank b ∧ a.createdAt < b.createdAt))))

def claimedTask (owner : String) (now expires : ℚ) (row : TaskRow) : TaskRow :=
  { row with
    state := .running, attempts := row.attempts + 1, updatedAt := now,
    claimOwner := some owner, claimExpiresAt := some expires,
    fencingToken := row.fencingToken + 1, mutationProtocol := "fenced.v2",
    mutationSeq := row.mutationSeq + 1 }

def budgetUsed (args : ClaimArgs) (db : TaskDb) : Bool :=
  match args.claimBudgetKey with
  | some key => key ≠ "" && db.claimBudgetUsed key
  | none => false

/-- The cursors of the lane and of the budget after a claim. -/
def chargeLanes (args : ClaimArgs) (lane : Option (String × ℚ)) (db : TaskDb) : TaskDb :=
  { db with
    claimFairness := match lane with
      | some (key, _) => Function.update db.claimFairness key (db.claimFairness key + 1)
      | none => db.claimFairness
    claimBudgetUsed := match args.claimBudgetKey with
      | some key => if key = "" then db.claimBudgetUsed
          else Function.update db.claimBudgetUsed key true
      | none => db.claimBudgetUsed }

def claimNextTask (args : ClaimArgs) (clock : Readings) (store : Store) (db : TaskDb) :
    Except TaskError (Option TaskRow) × Store × TaskDb :=
  let before := effectiveNow store args.now clock.first
  let store := store.advance before
  match fairLane args with
  | .error e => (.error e, store, db)
  | .ok lane =>
      let now := effectiveNow store (some before) clock.second
      let store := store.advance now
      if budgetUsed args db then (.ok none, store, db)
      else
        -- Eligibility still compares with the time before the lock.
        match firstMin (claimOrder (laneRank lane args.freshEvery now db))
            (db.tasks.toList.filter (eligible args before db)) with
        | none => (.ok none, store, db)
        | some row =>
            match db.tasks.compareAndSet row.taskId
              (fun r => r.state = row.state ∧ r.claimOwner = none ∧
                r.fencingToken = row.fencingToken ∧ r.mutationProtocol = "fenced.v2" ∧
                r.mutationSeq = row.mutationSeq)
              (claimedTask store.ownerId now (now + store.leaseSeconds)) with
            | none => (.error (.stale "task changed during claim"), store, db)
            | some tasks =>
                let db' := chargeLanes args lane (recordTransition { db with tasks }
                  ⟨row.taskId, row.state, .running, "claimed", store.ownerId,
                    row.fencingToken + 1, row.mutationSeq + 1, now⟩)
                (.ok (db'.tasks.row row.taskId),
                  store.setClaim row.taskId (some (row.fencingToken + 1)), db')

def resetClaimBudget (key : String) (db : TaskDb) : TaskDb :=
  { db with claimBudgetUsed := Function.update db.claimBudgetUsed key false }

/-! ## `_set_state` and the calls that share it -/

inductive StateRequest
  | complete (lastResultRef runDirLabel : Option String) (queueJobId : Option ℕ)
      (reason : String)
  | materialize (queueJobId : ℕ)
  | skip (reason : String)
  | block (reason : String)
  | fail (error : String)
  | defer (until_ : ℚ) (reason : String)
  | requeue (reason : String)

def StateRequest.target : StateRequest → TaskState
  | .complete .. => .completed
  | .materialize _ => .deferred
  | .skip _ => .skipped
  | .block _ => .blocked
  | .fail _ => .failed
  | .defer .. => .deferred
  | .requeue _ => .queued

def StateRequest.reason : StateRequest → String
  | .complete _ _ _ reason => reason
  | .materialize _ => "materialized_awaiting_worker"
  | .skip reason => reason
  | .block reason => reason
  | .fail error => String.ofList (error.toList.take 500)
  | .defer _ reason => reason
  | .requeue reason => reason

/-- The further columns of the request. -/
def StateRequest.fields : StateRequest → TaskRow → TaskRow
  | .complete ref label job _, row =>
      { row with lastResultRef := ref, runDirLabel := label, materializedQueueJobId := job }
  | .materialize job, row =>
      { row with deferredUntil := none, materializedQueueJobId := some job }
  | .defer until_ _, row => { row with deferredUntil := some until_ }
  | .requeue _, row => { row with deferredUntil := none }
  | _, row => row

/-- What `_set_state` reads and checks before it writes. -/
def setStateCheck (tid : ℕ) (target : TaskState) (now : Option ℚ) (observed : ℚ)
    (store : Store) (db : TaskDb) : Except TaskError TaskRow × Store :=
  let current := effectiveNow store now observed
  let store := store.advance current
  match db.tasks.row tid with
  | none => (.error (.key "unknown task"), store)
  | some row =>
      match row.claimOwner with
      | none =>
          if row.state = .running ∨ target = .running then
            (.error (.stale "running transition requires a fenced claim"), store)
          else (.ok row, store)
      | some owner =>
          if owner ≠ store.ownerId ∨ store.claims tid ≠ some row.fencingToken ∨
              row.claimExpiresAt.getD 0 ≤ current then
            (.error (.stale "stale claim for task"), store)
          else (.ok row, store)

def changedTask (req : StateRequest) (now : ℚ) (row : TaskRow) : TaskRow :=
  { req.fields row with
    state := req.target, machineReason := req.reason, updatedAt := now,
    mutationProtocol := "fenced.v2", mutationSeq := row.mutationSeq + 1,
    claimOwner := none, claimExpiresAt := none }

/-- The row is as it was read, and its claim, if it had one, is alive. -/
def unchangedSince (row : TaskRow) (owner : String) (now : ℚ) (r : TaskRow) : Bool :=
  decide (r.state = row.state ∧ r.fencingToken = row.fencingToken ∧
    r.mutationProtocol = "fenced.v2" ∧ r.mutationSeq = row.mutationSeq ∧
    if row.claimOwner = none then r.claimOwner = none
    else r.claimOwner = some owner ∧ ∃ e ∈ r.claimExpiresAt, now < e)

def setStateWrite (req : StateRequest) (tid : ℕ) (row : TaskRow) (observed : ℚ)
    (store : Store) (db : TaskDb) : Except TaskError Unit × Store × TaskDb :=
  let current := effectiveNow store (some store.authorityTimeFloor) observed
  let store := store.advance current
  match db.tasks.compareAndSet tid (unchangedSince row store.ownerId current)
    (changedTask req current) with
  | none => (.error (.stale "task changed during transition"), store, db)
  | some tasks =>
      -- The update makes an inactive row active: only here can the unique index refuse.
      if req.target.active ∧ keyTaken db row.spec.taskKey (some tid) then
        (.error .integrity, store, db)
      else
        (.ok (), store.setClaim tid none,
          recordTransition { db with tasks }
            ⟨tid, row.state, req.target, req.reason, row.claimOwner.getD store.ownerId,
              row.fencingToken, row.mutationSeq + 1, current⟩)

/-- What `materialize_task` reads before it goes on to `_set_state`. -/
def materializeTaskCheck (tid : ℕ) (db : TaskDb) : Except TaskError Unit :=
  match db.tasks.row tid with
  | none => .error (.stale "materialization requires a fenced claim")
  | some row =>
      if row.state ≠ .running ∨ row.claimOwner = none then
        .error (.stale "materialization requires a fenced claim")
      else .ok ()

/-! ## Renewal, reaping and the disposition plan -/

def heldTask (owner : String) (fence : ℕ) (row : TaskRow) : Bool :=
  decide (row.state = .running ∧ row.claimOwner = some owner ∧
    row.fencingToken = fence ∧ row.mutationProtocol = "fenced.v2")

def renewedTask (expires now : ℚ) (row : TaskRow) : TaskRow :=
  { row with
    claimExpiresAt := some expires, updatedAt := now, mutationProtocol := "fenced.v2",
    mutationSeq := row.mutationSeq + 1 }

/-- `lease_seconds or self.lease_seconds`. -/
def renewalSeconds (leaseSeconds : Option ℚ) (store : Store) : ℚ :=
  if leaseSeconds.getD 0 = 0 then store.leaseSeconds else leaseSeconds.getD 0

def renewTaskClaimToken (tid fence : ℕ) (leaseSeconds now : Option ℚ) (clock : Readings)
    (store : Store) (db : TaskDb) : Except TaskError ℚ × Store × TaskDb :=
  let duration := renewalSeconds leaseSeconds store
  if duration ≤ 0 then (.error (.value "lease_seconds must be positive"), store, db)
  else
    let before := effectiveNow store now clock.first
    let current := effectiveNow (store.advance before) (some before) clock.second
    let store := store.advance current
    match (db.tasks.row tid).filter (heldTask store.ownerId fence) with
    | none => (.error (.stale "stale claim for task"), store, db)
    | some row =>
        if row.claimExpiresAt.getD 0 ≤ current then
          (.error (.stale "stale claim for task"), store, db)
        else
          match db.tasks.compareAndSet tid
            (fun r => heldTask store.ownerId fence r ∧
              (∃ e ∈ r.claimExpiresAt, current < e) ∧ r.mutationSeq = row.mutationSeq)
            (renewedTask (current + duration) current) with
          | none => (.error (.stale "task changed during renewal"), store, db)
          | some tasks => (.ok (current + duration), store, { db with tasks })

def expiredTask (now : ℚ) (row : TaskRow) : Bool :=
  decide (row.state = .running ∧ row.mutationProtocol = "fenced.v2" ∧
    row.claimOwner ≠ none ∧ ∃ e ∈ row.claimExpiresAt, e ≤ now)

def reapedTask (reason : String) (now : ℚ) (row : TaskRow) : TaskRow :=
  { row with
    state := .queued, machineReason := reason, updatedAt := now, claimOwner := none,
    claimExpiresAt := none, mutationProtocol := "fenced.v2",
    mutationSeq := row.mutationSeq + 1 }

/-- One turn of the loop of `reconcile_orphan_running` over the selected rows. -/
def reconcileOne (reason : String) (now : ℚ) (acc : ℕ × Store × TaskDb) (row : TaskRow) :
    ℕ × Store × TaskDb :=
  match acc.2.2.tasks.compareAndSet row.taskId
    (fun r => expiredTask now r ∧ r.claimOwner = row.claimOwner ∧
      r.fencingToken = row.fencingToken ∧ r.mutationSeq = row.mutationSeq)
    (reapedTask reason now) with
  | none => acc
  | some tasks =>
      (acc.1 + 1, acc.2.1.setClaim row.taskId none,
        recordTransition { acc.2.2 with tasks }
          ⟨row.taskId, .running, .queued, reason, row.claimOwner.getD "", row.fencingToken,
            row.mutationSeq + 1, now⟩)

def reconcileOrphanRunning (reason : String) (now : Option ℚ) (clock : Readings)
    (store : Store) (db : TaskDb) : ℕ × Store × TaskDb :=
  let before := effectiveNow store now clock.first
  let current := effectiveNow (store.advance before) (some before) clock.second
  (db.tasks.toList.filter (expiredTask current)).foldl (reconcileOne reason current)
    (0, store.advance current, db)

structure DispositionEntry where
  taskId : ℕ
  state : TaskState
  fencingToken : ℕ
  mutationSeq : ℕ
  reason : String
  payloadSha256 : String

inductive EntryCheck
  | applied
  | due (row : TaskRow)
  | stale (message : String)

/-- One turn of the first loop of `apply_export_validation_disposition_plan`. -/
def checkEntry (sha256 : String → String) (entry : DispositionEntry) (db : TaskDb) :
    EntryCheck :=
  match db.tasks.row entry.taskId with
  | none => .stale "validation disposition task identity changed"
  | some row =>
      if row.spec.taskType ≠ "export_validation" then
        .stale "validation disposition task identity changed"
      else
        let digest := sha256 row.spec.payloadJson
        if row.state = .skipped ∧ row.machineReason = entry.reason ∧
            row.fencingToken = entry.fencingToken ∧
            row.mutationSeq = entry.mutationSeq + 1 ∧ digest = entry.payloadSha256 ∧
            row.claimOwner = none then
          .applied
        else if row.state = entry.state ∧ (row.state = .queued ∨ row.state = .deferred) ∧
            row.fencingToken = entry.fencingToken ∧ row.mutationSeq = entry.mutationSeq ∧
            digest = entry.payloadSha256 ∧ row.claimOwner = none then
          .due row
        else .stale "validation disposition plan is stale"

def checkEntries (sha256 : String → String) (db : TaskDb) :
    List DispositionEntry → Except TaskError (ℕ × List (TaskRow × DispositionEntry))
  | [] => .ok (0, [])
  | entry :: rest =>
      match checkEntry sha256 entry db with
      | .stale message => .error (.stale message)
      | .applied => (checkEntries sha256 db rest).map fun r => (r.1 + 1, r.2)
      | .due row => (checkEntries sha256 db rest).map fun r => (r.1, (row, entry) :: r.2)

def skippedTask (reason : String) (now : ℚ) (row : TaskRow) : TaskRow :=
  { row with
    state := .skipped, machineReason := reason, updatedAt := now,
    mutationProtocol := "fenced.v2", mutationSeq := row.mutationSeq + 1,
    claimOwner := none, claimExpiresAt := none }

/-- The second loop: the first entry that does not match any more raises. -/
def applyEntries (owner : String) (now : ℚ) :
    List (TaskRow × DispositionEntry) → TaskDb → Except TaskError TaskDb
  | [], db => .ok db
  | (row, entry) :: rest, db =>
      match db.tasks.compareAndSet row.taskId
        (fun r => r.state = row.state ∧ r.fencingToken = row.fencingToken ∧
          r.mutationProtocol = "fenced.v2" ∧ r.mutationSeq = row.mutationSeq ∧
          r.claimOwner = none)
        (skippedTask entry.reason now) with
      | none => .error (.stale "validation disposition changed during apply")
      | some tasks =>
          applyEntries owner now rest (recordTransition { db with tasks }
            ⟨row.taskId, row.state, .skipped, entry.reason, owner, row.fencingToken,
              row.mutationSeq + 1, now⟩)

def applyDispositionPlan (sha256 : String → String) (entries : List DispositionEntry)
    (now : Option ℚ) (observed : ℚ) (store : Store) (db : TaskDb) :
    Except TaskError ℕ × Store × TaskDb :=
  let current := effectiveNow store now observed
  let store := store.advance current
  match checkEntries sha256 db entries with
  | .error e => (.error e, store, db)
  | .ok (applied, due) =>
      if applied ≠ 0 ∧ due ≠ [] then
        (.error (.stale "validation disposition plan is partially applied"), store, db)
      else
        match applyEntries store.ownerId current due db with
        | .error e => (.error e, store, db)
        | .ok db' => (.ok due.length, store, db')

end ResearchLab.FarmTasks
