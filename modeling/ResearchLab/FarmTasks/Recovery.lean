import Mathlib
import ResearchLab.FarmTasks.Runs

/-!
# Recovery of a materialization

A claim of a `run_sweep` task binds it to a job of the compute queue, which is another database. When
the claim expires between the two commits, its holder, the plans of `materialization_recovery` and
`reconcile_orphan_running` compete for the task.
-/
namespace ResearchLab.FarmTasks
open Foundation

/-! ## Plans -/

/-- What the plans use of their host: `Path.resolve` and the digest of a canonical JSON text. -/
structure RecoveryHost (δ : Type) where
  resolve : String → String
  digest : δ → String
  resolve_resolve : ∀ path, resolve (resolve path) = resolve path

structure RecoveryEntry where
  taskId : ℕ
  taskType : String
  state : TaskState
  fencingToken : ℕ
  mutationSeq : ℕ
  materializationId : String
  outboxState : OutboxState
  queueJobId : ℕ
  queueStatus : ComputeQueue.JobStatus
  specPath : String
  specDigest : String
  alreadyAdopted : Bool
  deriving DecidableEq

/-- The fields of a plan that its digest covers. -/
structure PlanIdentity where
  schema : String
  farmDatabase : String
  computeDatabase : String
  entry : RecoveryEntry
  deriving DecidableEq

structure RecoveryPlan extends PlanIdentity where
  observedAt : ℚ
  planDigest : String
  deriving DecidableEq

def recoverySchema : String := "ExpiredMaterializationRecoveryPlan.v1"

variable {host : RecoveryHost PlanIdentity}

/-- The intents of the task that a plan may be about, with their ids. -/
def recoveryIntents (tid : ℕ) (db : TaskDb) : List (String × OutboxRow) :=
  db.outbox.entries.filter fun e =>
    decide (e.2.taskId = tid ∧ (e.2.state.open ∨ e.2.state = .acknowledged))

/-- The task and its intent look as an adoption has left them. -/
def looksAdopted (job : ℕ) (task : TaskRow) (outbox : OutboxRow) : Bool :=
  decide (task.spec.taskType = "run_sweep" ∧ task.state = .deferred ∧
    task.mutationProtocol = "fenced.v2" ∧ task.claimOwner = none ∧ task.claimExpiresAt = none ∧
    task.materializedQueueJobId.getD 0 = job ∧ outbox.state = .acknowledged ∧
    outbox.queueJobId.getD 0 = job)

/-- The claim of the task has expired while its intent is open. -/
def recoverable (job : ℕ) (observedAt : ℚ) (task : TaskRow) (outbox : OutboxRow) : Bool :=
  decide (task.spec.taskType = "run_sweep" ∧ task.state = .running ∧ task.claimOwner ≠ none ∧
    task.claimExpiresAt.getD 0 ≤ observedAt ∧ task.mutationProtocol = "fenced.v2" ∧
    task.materializedQueueJobId = none ∧ outbox.taskFencingToken = task.fencingToken ∧
    outbox.state.open ∧ ∀ j ∈ outbox.queueJobId, j = job)

def planEntry (task : TaskRow) (id : String) (outbox : OutboxRow) (job : ComputeQueue.JobRow)
    (jobId : ℕ) (adopted : Bool) : RecoveryEntry where
  taskId := task.taskId
  taskType := task.spec.taskType
  state := task.state
  fencingToken := task.fencingToken
  mutationSeq := task.mutationSeq - if adopted then 1 else 0
  materializationId := id
  outboxState := outbox.state
  queueJobId := jobId
  queueStatus := job.status
  specPath := outbox.specPath
  specDigest := outbox.specDigest
  alreadyAdopted := adopted

/-- `build_plan` with its time `observed_at`. -/
def buildPlan (host : RecoveryHost PlanIdentity) (farmDbPath computeDbPath : String) (tid : ℕ)
    (observedAt : ℚ) (db : TaskDb) (compute : ComputeQueue.QueueDb) :
    Except TaskError RecoveryPlan :=
  match db.tasks.row tid with
  | none => .error (.value "recovery task is missing")
  | some task =>
      match recoveryIntents tid db with
      | [(id, outbox)] =>
          match ComputeQueue.bindingOf compute id with
          | none => .error (.value "recovery compute binding is missing")
          | some (m, q) =>
              if m.specPath ≠ outbox.specPath ∨ m.specDigest ≠ outbox.specDigest ∨
                  q.materializationId.getD "" ≠ id ∨
                  q.materializationDigest.getD "" ≠ outbox.specDigest then
                .error (.value "recovery compute binding disagrees with outbox")
              else if !looksAdopted m.jobId task outbox ∧
                  !recoverable m.jobId observedAt task outbox then
                .error (.value "recovery task or outbox is not eligible")
              else
                let identity : PlanIdentity :=
                  { schema := recoverySchema
                    farmDatabase := host.resolve farmDbPath
                    computeDatabase := host.resolve computeDbPath
                    entry := planEntry task id outbox q m.jobId (looksAdopted m.jobId task outbox) }
                .ok { identity with observedAt, planDigest := host.digest identity }
      | _ => .error (.value "recovery requires exactly one materialization outbox")

def RecoveryEntry.args (entry : RecoveryEntry) : AdoptArgs where
  taskId := entry.taskId
  expectedFence := entry.fencingToken
  expectedMutationSeq := entry.mutationSeq
  materializationId := entry.materializationId
  queueJobId := entry.queueJobId
  specPath := entry.specPath
  specDigest := entry.specDigest
  expectedQueueStatus := entry.queueStatus

/-- What `apply_plan` demands of a plan before it opens the store. -/
def checkPlan (host : RecoveryHost PlanIdentity) (farmDbPath computeDbPath : String)
    (plan : RecoveryPlan) (expectedPlanDigest : String) : Except TaskError Unit :=
  if plan.schema ≠ recoverySchema then
    .error (.value "unsupported materialization recovery plan schema")
  else if host.digest plan.toPlanIdentity ≠ plan.planDigest then
    .error (.value "materialization recovery plan self-digest mismatch")
  else if host.digest plan.toPlanIdentity ≠ expectedPlanDigest then
    .error (.value "materialization recovery expected digest mismatch")
  else if host.resolve plan.farmDatabase ≠ host.resolve farmDbPath ∨
      host.resolve plan.computeDatabase ≠ host.resolve computeDbPath then
    .error (.value "materialization recovery database capability mismatch")
  else .ok ()

/-- What `apply_plan` reads of the clock: for itself, when it opens its store, and in the call. -/
structure PlanReadings where
  current : ℚ
  opened : ℚ
  call : Readings

/-- `apply_plan`, which opens a store of its own when the plan has passed. -/
def applyPlan (host : RecoveryHost PlanIdentity) (farmDbPath computeDbPath : String)
    (plan : RecoveryPlan) (expectedPlanDigest : String) (now : Option ℚ) (clock : PlanReadings)
    (compute : ComputeQueue.QueueDb) (db : TaskDb) : Except TaskError ℕ × TaskDb :=
  match checkPlan host farmDbPath computeDbPath plan expectedPlanDigest with
  | .error e => (.error e, db)
  | .ok () =>
      let r := adoptExpiredMaterialization plan.entry.args compute (some (now.getD clock.current))
        clock.call (.open "materialization-recovery" 300 clock.opened) (migratePriorityScale db)
      (r.1, r.2.2)

/-- A plan that was built is one that can be applied to its databases. -/
theorem checkPlan_buildPlan {farmDbPath computeDbPath : String} {tid : ℕ} {observedAt : ℚ}
    {db : TaskDb} {compute : ComputeQueue.QueueDb} {plan : RecoveryPlan}
    (h : buildPlan host farmDbPath computeDbPath tid observedAt db compute = .ok plan) :
    checkPlan host farmDbPath computeDbPath plan plan.planDigest = .ok () := by
  unfold buildPlan at h
  split at h
  · cases h
  split at h
  · split at h
    · cases h
    split_ifs at h
    obtain rfl := Except.ok.inj h
    simp [checkPlan, host.resolve_resolve]
  · cases h

/-! ## The competing calls -/

/-- The brain database, the compute database and the open stores. -/
structure RecoveryFarm where
  db : TaskDb
  compute : ComputeQueue.QueueDb
  stores : ℕ → Store

inductive RecoveryCall
  | commit (w tid : ℕ) (id : String) (queueJobId : ℕ) (now : Option ℚ) (clock : Readings)
  | adopt (w : ℕ) (args : AdoptArgs) (now : Option ℚ) (clock : Readings)
  | apply (farmDbPath computeDbPath : String) (plan : RecoveryPlan) (expectedPlanDigest : String)
      (now : Option ℚ) (clock : PlanReadings)
  | reconcile (w : ℕ) (reason : String) (now : Option ℚ) (clock : Readings)
  | open (w : ℕ) (ownerId : String) (leaseSeconds floor : ℚ)

/-- The call reports how many tasks it has changed: a commit that does not raise has changed one. -/
def RecoveryFarm.perform (host : RecoveryHost PlanIdentity) (s : RecoveryFarm) :
    RecoveryCall → Except TaskError ℕ × RecoveryFarm
  | .commit w tid id job now clock =>
      let r := commitMaterialization tid id job now clock (s.stores w) s.db
      (r.1.map fun _ => 1, { s with db := r.2.2, stores := Function.update s.stores w r.2.1 })
  | .adopt w args now clock =>
      let r := adoptExpiredMaterialization args s.compute now clock (s.stores w) s.db
      (r.1, { s with db := r.2.2, stores := Function.update s.stores w r.2.1 })
  | .apply farmDbPath computeDbPath plan expectedPlanDigest now clock =>
      let r := applyPlan host farmDbPath computeDbPath plan expectedPlanDigest now clock s.compute s.db
      (r.1, { s with db := r.2 })
  | .reconcile w reason now clock =>
      let r := reconcileOrphanRunning reason now clock (s.stores w) s.db
      (.ok r.1, { s with db := r.2.2, stores := Function.update s.stores w r.2.1 })
  | .open w ownerId leaseSeconds floor =>
      (.ok 0, { s with
        db := migratePriorityScale s.db
        stores := Function.update s.stores w (.open ownerId leaseSeconds floor) })

/-- The calls that compete for an expired claim, from any state of the two databases. -/
def recoveryFarm (host : RecoveryHost PlanIdentity) : Machine RecoveryFarm RecoveryCall where
  init _ := True
  enabled _ _ := True
  step s call := (s.perform host call).2

@[simp] theorem recoveryFarm_step (host : RecoveryHost PlanIdentity) (s : RecoveryFarm)
    (call : RecoveryCall) : (recoveryFarm host).step s call = (s.perform host call).2 := rfl

/-- The adoption that a call asks for. -/
def RecoveryCall.adoption (host : RecoveryHost PlanIdentity) : RecoveryCall → Option AdoptArgs
  | .adopt _ args _ _ => some args
  | .apply farmDbPath computeDbPath plan expectedPlanDigest _ _ =>
      (checkPlan host farmDbPath computeDbPath plan expectedPlanDigest).toOption.map
        fun _ => plan.entry.args
  | _ => none

/-- The call opens a store. -/
def RecoveryCall.opens (host : RecoveryHost PlanIdentity) : RecoveryCall → Bool
  | .open .. => true
  | .apply farmDbPath computeDbPath plan expectedPlanDigest _ _ =>
      (checkPlan host farmDbPath computeDbPath plan expectedPlanDigest).toOption.isSome
  | _ => false

/-- The tables on which the statements of the call run. -/
def RecoveryCall.opened (host : RecoveryHost PlanIdentity) (call : RecoveryCall) (db : TaskDb) :
    TaskDb :=
  if call.opens host then migratePriorityScale db else db

/-- The task that a call is about. -/
def RecoveryCall.task : RecoveryCall → Option ℕ
  | .commit _ tid _ _ _ _ => some tid
  | .adopt _ args _ _ => some args.taskId
  | .apply _ _ plan _ _ _ => some plan.entry.taskId
  | .reconcile .. | .open .. => none

/-! ## What each call does -/

variable {db db' : TaskDb}

/-- The running task and its open intent are bound together, and the log has a row about it. -/
structure Binds (db db' : TaskDb) (tid : ℕ) (r : TaskRow) (id : String) (o : OutboxRow) (job : ℕ)
    (now : ℚ) : Prop extends Parks db db' tid r id o job now where
  logged : ∃ t : TransitionRow, t.taskId = tid ∧ db'.transitions = db.transitions ++ [t]

theorem commit_cases (tid : ℕ) (id : String) (job : ℕ) (now : Option ℚ) (clock : Readings)
    (store : Store) (db : TaskDb) :
    ((∃ e, (commitMaterialization tid id job now clock store db).1 = .error e) ∧
      (commitMaterialization tid id job now clock store db).2.2 = db) ∨
    (commitMaterialization tid id job now clock store db).1 = .ok () ∧
      ∃ r o current, Binds db (commitMaterialization tid id job now clock store db).2.2 tid r id o
        job current := by
  simp only [commitMaterialization]
  split
  · split
    · exact .inl ⟨⟨_, rfl⟩, rfl⟩
    split
    · exact .inl ⟨⟨_, rfl⟩, rfl⟩
    next tasks hcas =>
    split
    · exact .inl ⟨⟨_, rfl⟩, rfl⟩
    next outbox' hack =>
    obtain ⟨r, hr, hp, rfl⟩ := Table.compareAndSet_eq_some.1 hcas
    obtain ⟨o, ho, hq, rfl⟩ := Table.compareAndSet_eq_some.1 hack
    obtain ⟨hheld, -, -⟩ := of_decide_eq_true hp
    obtain ⟨hrun, howner, hfence, -⟩ := heldTask_iff.1 hheld
    obtain ⟨htask, hofence, hopen⟩ := of_decide_eq_true hq
    refine .inr ⟨rfl, r, o, _, ⟨rewrites_modify hr rfl, hrun, by simp [howner], ho, htask,
      hofence.trans hfence.symm, hopen, rfl⟩, _, ?_, rfl⟩
    rfl
  · exact .inl ⟨⟨_, rfl⟩, rfl⟩

/-- The adoption is the one that its arguments describe. -/
structure Adopts (args : AdoptArgs) (compute : ComputeQueue.QueueDb) (db db' : TaskDb) : Prop where
  bound : computeBindingHolds args compute = true
  binds : ∃ r o current,
    Binds db db' args.taskId r args.materializationId o args.queueJobId current ∧
    r.spec.taskType = "run_sweep" ∧ r.fencingToken = args.expectedFence ∧
    r.mutationSeq = args.expectedMutationSeq ∧ o.specPath = args.specPath ∧
    o.specDigest = args.specDigest

theorem adopt_cases (args : AdoptArgs) (compute : ComputeQueue.QueueDb) (now : Option ℚ)
    (clock : Readings) (store : Store) (db : TaskDb) :
    ((∃ e, (adoptExpiredMaterialization args compute now clock store db).1 = .error e) ∨
        (adoptExpiredMaterialization args compute now clock store db).1 = .ok 0) ∧
      (adoptExpiredMaterialization args compute now clock store db).2.2 = db ∨
    (adoptExpiredMaterialization args compute now clock store db).1 = .ok 1 ∧
      Adopts args compute db (adoptExpiredMaterialization args compute now clock store db).2.2 := by
  simp only [adoptExpiredMaterialization]
  split
  · split
    · exact .inl ⟨.inl ⟨_, rfl⟩, rfl⟩
    next hbound =>
    split
    · exact .inl ⟨.inr rfl, rfl⟩
    split
    · exact .inl ⟨.inl ⟨_, rfl⟩, rfl⟩
    split
    · next tasks outbox hcas hack =>
      obtain ⟨r, hr, hp, rfl⟩ := Table.compareAndSet_eq_some.1 hcas
      obtain ⟨o, ho, hq, rfl⟩ := Table.compareAndSet_eq_some.1 hack
      obtain ⟨htype, hrun, howner, -, hfence, -, hseq, -⟩ := of_decide_eq_true hp
      obtain ⟨htask, hofence, hopen, hpath, hdigest⟩ := of_decide_eq_true hq
      refine .inr ⟨rfl, by simpa using hbound, r, o, _, ⟨⟨rewrites_modify hr rfl, hrun, howner, ho,
        htask, hofence.trans hfence.symm, hopen, rfl⟩, _, ?_, rfl⟩, htype, hfence, hseq, hpath,
        hdigest⟩
      rfl
    · exact .inl ⟨.inl ⟨_, rfl⟩, rfl⟩
  · exact .inl ⟨.inl ⟨_, rfl⟩, rfl⟩

/-- What an adoption has left. -/
structure Adopted (args : AdoptArgs) (compute : ComputeQueue.QueueDb) (db : TaskDb) : Prop where
  bound : computeBindingHolds args compute = true
  left : ∃ row outbox, db.tasks.row args.taskId = some row ∧
    db.outbox.row args.materializationId = some outbox ∧ outbox.taskId = args.taskId ∧
    alreadyAdopted args row outbox = true

theorem Adopts.adopted {args : AdoptArgs} {compute : ComputeQueue.QueueDb}
    (h : Adopts args compute db db') : Adopted args compute db' := by
  obtain ⟨hbound, r, o, current, hbinds, htype, hfence, hseq, hpath, hdigest⟩ := h
  refine ⟨hbound, parkedTask args.queueJobId current r, acknowledge args.queueJobId current o, ?_,
    ?_, hbinds.task, ?_⟩
  · rw [hbinds.rewrites.rows, if_pos rfl]
  · rw [hbinds.outbox, Table.modify_row_self, hbinds.intent]
    rfl
  · simp [alreadyAdopted, parked, parkedTask, acknowledge, htype, hfence, hseq, hbinds.fence, hpath,
      hdigest]

/-- An adoption that was made is found again, whatever the clocks and the store. -/
theorem Adopted.again {args : AdoptArgs} {compute : ComputeQueue.QueueDb}
    (h : Adopted args compute db) (now : Option ℚ) (clock : Readings) (store : Store) :
    (adoptExpiredMaterialization args compute now clock store db).1 = .ok 0 ∧
      (adoptExpiredMaterialization args compute now clock store db).2.2 = db := by
  obtain ⟨hbound, row, outbox, hrow, hout, htask, hadopted⟩ := h
  simp [adoptExpiredMaterialization, hrow, hout, htask, hbound, hadopted, Option.filter]

/-- A running task has been queued again under its fence. -/
def Reaped (db db' : TaskDb) (k : ℕ) : Prop :=
  ∃ r r', db.tasks.row k = some r ∧ r.state = .running ∧ db'.tasks.row k = some r' ∧
    r'.state = .queued ∧ r'.fencingToken = r.fencingToken ∧ r'.priority = r.priority

/-- `n` running tasks have been queued again, and the intents are as they were. -/
structure Reaps (db db' : TaskDb) (n : ℕ) : Prop where
  outbox : db'.outbox = db.outbox
  none : n = 0 → db' = db
  some : n ≠ 0 → ∃ k, Reaped db db' k
  rows : ∀ k, (db'.tasks.row k = db.tasks.row k ∧ logOf db' k = logOf db k) ∨ Reaped db db' k

theorem Reaps.refl (db : TaskDb) : Reaps db db 0 :=
  ⟨rfl, fun _ => rfl, fun h => absurd rfl h, fun _ => .inl ⟨rfl, rfl⟩⟩

theorem Reaps.trans {db₁ db₂ db₃ : TaskDb} {m n : ℕ} (h₁ : Reaps db₁ db₂ m) (h₂ : Reaps db₂ db₃ n) :
    Reaps db₁ db₃ (m + n) := by
  have hfirst : ∀ k, Reaped db₁ db₂ k → Reaped db₁ db₃ k := by
    rintro k ⟨r, r', hr, hrun, hr', hqueued, hrest⟩
    rcases h₂.rows k with ⟨hrow, -⟩ | ⟨r'', _, hr'', hrun'', -⟩
    · exact ⟨r, r', hr, hrun, hrow.trans hr', hqueued, hrest⟩
    · obtain rfl : r' = r'' := Option.some.inj (hr'.symm.trans hr'')
      rw [hqueued] at hrun''
      cases hrun''
  have hsecond : ∀ k, Reaped db₂ db₃ k → Reaped db₁ db₃ k := by
    intro k hreaped
    rcases h₁.rows k with ⟨hrow, -⟩ | hreaped'
    · obtain ⟨r, r', hr, hrest⟩ := hreaped
      exact ⟨r, r', hrow ▸ hr, hrest⟩
    · exact hfirst k hreaped'
  refine ⟨h₂.outbox.trans h₁.outbox, fun h => ?_, fun h => ?_, fun k => ?_⟩
  · rw [h₂.none (by omega), h₁.none (by omega)]
  · by_cases hm : m = 0
    · obtain ⟨k, hk⟩ := h₂.some (by omega)
      exact ⟨k, hsecond k hk⟩
    · obtain ⟨k, hk⟩ := h₁.some hm
      exact ⟨k, hfirst k hk⟩
  · rcases h₁.rows k with ⟨hrow₁, hlog₁⟩ | hreaped
    · rcases h₂.rows k with ⟨hrow₂, hlog₂⟩ | hreaped
      · exact .inl ⟨hrow₂.trans hrow₁, hlog₂.trans hlog₁⟩
      · exact .inr (hsecond k hreaped)
    · exact .inr (hfirst k hreaped)

theorem reaps_one (reason : String) (now : ℚ) (acc : ℕ × Store × TaskDb) (row : TaskRow) :
    ∃ n, (reconcileOne reason now acc row).1 = acc.1 + n ∧
      Reaps acc.2.2 (reconcileOne reason now acc row).2.2 n := by
  unfold reconcileOne
  split
  · exact ⟨0, rfl, .refl _⟩
  next tasks hcas =>
  obtain ⟨r, hr, hp, rfl⟩ := Table.compareAndSet_eq_some.1 hcas
  have hrun : r.state = .running := (of_decide_eq_true (of_decide_eq_true hp).1).1
  have hreaped : Reaped acc.2.2 (recordTransition
      { acc.2.2 with tasks := acc.2.2.tasks.modify row.taskId (reapedTask reason now) }
      ⟨row.taskId, .running, .queued, reason, row.claimOwner.getD "", row.fencingToken,
        row.mutationSeq + 1, now⟩) row.taskId :=
    ⟨r, reapedTask reason now r, hr, hrun,
      (Table.modify_row_self ..).trans (congrArg (Option.map _) hr), rfl, rfl, rfl⟩
  refine ⟨1, rfl, rfl, fun h => absurd h one_ne_zero, fun _ => ⟨_, hreaped⟩, fun k => ?_⟩
  by_cases hk : k = row.taskId
  · exact .inr (hk ▸ hreaped)
  · refine .inl ⟨Table.modify_row_of_ne _ hk _, ?_⟩
    simp [logOf, recordTransition, List.filter_append, Ne.symm hk]

theorem reaps_foldl (reason : String) (now : ℚ) (rows : List TaskRow) (acc : ℕ × Store × TaskDb) :
    ∃ n, (rows.foldl (reconcileOne reason now) acc).1 = acc.1 + n ∧
      Reaps acc.2.2 (rows.foldl (reconcileOne reason now) acc).2.2 n := by
  induction rows generalizing acc with
  | nil => exact ⟨0, rfl, .refl _⟩
  | cons row rows ih =>
    obtain ⟨m, hm, hone⟩ := reaps_one reason now acc row
    obtain ⟨n, hn, hrest⟩ := ih (reconcileOne reason now acc row)
    exact ⟨m + n, by rw [List.foldl_cons, hn, hm, Nat.add_assoc], hone.trans hrest⟩

theorem reconcile_reaps (reason : String) (now : Option ℚ) (clock : Readings) (store : Store)
    (db : TaskDb) :
    Reaps db (reconcileOrphanRunning reason now clock store db).2.2
      (reconcileOrphanRunning reason now clock store db).1 := by
  simp only [reconcileOrphanRunning]
  obtain ⟨n, hn, hreaps⟩ := reaps_foldl reason _ _ (0, _, db)
  rw [hn, Nat.zero_add]
  exact hreaps

/-- On the tables as the call opens them it raises or reports no change, and changes none; or it
binds its task; or it reaps tasks. -/
inductive RecoveryStep (host : RecoveryHost PlanIdentity) (s : RecoveryFarm) (call : RecoveryCall) : Prop
  | quiet (reply : (∃ e, (s.perform host call).1 = .error e) ∨ (s.perform host call).1 = .ok 0)
      (same : (s.perform host call).2.db = call.opened host s.db)
  | bound (tid : ℕ) (r : TaskRow) (id : String) (o : OutboxRow) (job : ℕ) (now : ℚ)
      (about : call.task = some tid) (reply : (s.perform host call).1 = .ok 1)
      (binds : Binds (call.opened host s.db) (s.perform host call).2.db tid r id o job now)
      (adopts : ∀ args ∈ call.adoption host,
        Adopts args s.compute (call.opened host s.db) (s.perform host call).2.db)
  | reaped (n : ℕ) (about : call.task = none) (noPlan : call.adoption host = none)
      (reply : (s.perform host call).1 = .ok n)
      (reaps : Reaps (call.opened host s.db) (s.perform host call).2.db n)

theorem recoveryStep (s : RecoveryFarm) (call : RecoveryCall) : RecoveryStep host s call := by
  have hadopt : ∀ args now clock store, call.task = some args.taskId → call.adoption host = some args →
      (s.perform host call).1 =
        (adoptExpiredMaterialization args s.compute now clock store (call.opened host s.db)).1 →
      (s.perform host call).2.db =
        (adoptExpiredMaterialization args s.compute now clock store (call.opened host s.db)).2.2 →
      RecoveryStep host s call := by
    intro args now clock store htask hadoption hreply hdb
    rcases adopt_cases args s.compute now clock store (call.opened host s.db) with
      ⟨h, hsame⟩ | ⟨hok, hadopts⟩
    · exact .quiet (by rw [hreply]; exact h) (hdb.trans hsame)
    · rw [← hdb] at hadopts
      obtain ⟨r, o, current, hbinds, -⟩ := hadopts.binds
      refine .bound _ r _ o _ current htask (hreply.trans hok) hbinds fun args' hargs' => ?_
      obtain rfl : args = args' := Option.some.inj (hadoption.symm.trans hargs')
      exact hadopts
  cases call with
  | commit w tid id job now clock =>
    rcases commit_cases tid id job now clock (s.stores w) s.db with
      ⟨⟨e, he⟩, hsame⟩ | ⟨hok, r, o, current, hbinds⟩
    · exact .quiet (.inl ⟨e, by simp only [RecoveryFarm.perform, he, Except.map]⟩) hsame
    · exact .bound tid r id o job current rfl
        (by simp only [RecoveryFarm.perform, hok, Except.map]) hbinds (fun args h => by cases h)
  | adopt w args now clock => exact hadopt args now clock (s.stores w) rfl rfl rfl rfl
  | apply farmDbPath computeDbPath plan expected now clock =>
    cases hcheck : checkPlan host farmDbPath computeDbPath plan expected with
    | error e =>
      refine .quiet (.inl ⟨e, by simp only [RecoveryFarm.perform, applyPlan, hcheck]⟩) ?_
      simp [RecoveryFarm.perform, applyPlan, hcheck, RecoveryCall.opened, RecoveryCall.opens,
        Except.toOption]
    | ok u =>
      have hopened : (RecoveryCall.apply farmDbPath computeDbPath plan expected now clock).opened
          host s.db = migratePriorityScale s.db := by
        simp [RecoveryCall.opened, RecoveryCall.opens, hcheck, Except.toOption]
      exact hadopt plan.entry.args (some (now.getD clock.current)) clock.call
        (.open "materialization-recovery" 300 clock.opened) rfl
        (by simp only [RecoveryCall.adoption, hcheck]; rfl)
        (by simp only [hopened, RecoveryFarm.perform, applyPlan, hcheck])
        (by simp only [hopened, RecoveryFarm.perform, applyPlan, hcheck])
  | reconcile w reason now clock =>
    exact .reaped _ rfl rfl rfl (reconcile_reaps reason now clock (s.stores w) s.db)
  | «open» w ownerId leaseSeconds floor => exact .quiet (.inr rfl) rfl

/-! ## Opening a store -/

section
variable (host) (call : RecoveryCall)

/-- Opening a store translates priorities and leaves the rest. -/
theorem opened_row (k : ℕ) :
    (call.opened host db).tasks.row k = db.tasks.row k ∨
      (call.opened host db).tasks.row k = (db.tasks.row k).map scaledTask := by
  unfold RecoveryCall.opened
  split_ifs
  · exact .inr (migratePriorityScale_row db k)
  · exact .inl rfl

@[simp] theorem opened_outbox : (call.opened host db).outbox = db.outbox := by
  unfold RecoveryCall.opened
  split_ifs <;> rfl

@[simp] theorem opened_transitions : (call.opened host db).transitions = db.transitions := by
  unfold RecoveryCall.opened
  split_ifs <;> rfl

end

/-- No task has a priority of the old scale. -/
def Scaled (db : TaskDb) : Prop := ∀ k r, db.tasks.row k = some r → legacyPriority r = false

theorem scaled_migratePriorityScale (db : TaskDb) : Scaled (migratePriorityScale db) := by
  intro k r hr
  rw [migratePriorityScale_row] at hr
  obtain ⟨row, -, rfl⟩ := Option.map_eq_some_iff.1 hr
  exact not_legacyPriority_scaledTask row

/-- Opening another store changes nothing then. -/
theorem Scaled.opened (h : Scaled db) (call : RecoveryCall) : call.opened host db = db := by
  have hmigrate : (migratePriorityScale db).tasks = db.tasks := by
    ext1
    · rfl
    · funext k
      rw [migratePriorityScale_row]
      cases hr : db.tasks.row k with
      | none => rfl
      | some r => rw [Option.map_some, scaledTask_eq_self (h k r hr)]
  unfold RecoveryCall.opened
  split_ifs
  · exact congrArg (fun tasks => { db with tasks }) hmigrate
  · rfl

/-- A task on the opened tables is the task that was there, but for its priority. -/
theorem of_opened_row {call : RecoveryCall} {k : ℕ} {r : TaskRow}
    (hr : (call.opened host db).tasks.row k = some r) :
    ∃ r₀, db.tasks.row k = some r₀ ∧ (r = r₀ ∨ r = scaledTask r₀) := by
  rcases opened_row host call k with h | h <;> rw [h] at hr
  · exact ⟨r, hr, .inl rfl⟩
  · obtain ⟨r₀, hr₀, rfl⟩ := Option.map_eq_some_iff.1 hr
    exact ⟨r₀, hr₀, .inr rfl⟩

theorem exists_opened_row (host : RecoveryHost PlanIdentity) (call : RecoveryCall) {k : ℕ}
    {r : TaskRow} (hr : db.tasks.row k = some r) :
    ∃ r₀, (call.opened host db).tasks.row k = some r₀ ∧ (r₀ = r ∨ r₀ = scaledTask r) := by
  rcases opened_row host call k with h | h <;> rw [h, hr]
  · exact ⟨r, rfl, .inl rfl⟩
  · exact ⟨scaledTask r, rfl, .inr rfl⟩

theorem Adopted.opened {args : AdoptArgs} {compute : ComputeQueue.QueueDb}
    (h : Adopted args compute db) (host : RecoveryHost PlanIdentity) (call : RecoveryCall) :
    Adopted args compute (call.opened host db) := by
  obtain ⟨hbound, row, outbox, hrow, hout, htask, hadopted⟩ := h
  obtain ⟨r₀, hr₀, rfl | rfl⟩ := exists_opened_row host call hrow
  · exact ⟨hbound, r₀, outbox, hr₀, by rw [opened_outbox, hout], htask, hadopted⟩
  · exact ⟨hbound, scaledTask row, outbox, hr₀, by rw [opened_outbox, hout], htask, hadopted⟩

/-! ## A generation of a task -/

/-- The task is claimed under the fence. -/
def InGeneration (db : TaskDb) (tid fence : ℕ) : Prop :=
  ∃ row ∈ db.tasks.row tid, row.state = .running ∧ row.fencingToken = fence

instance inGenerationDecidable (db : TaskDb) (tid fence : ℕ) : Decidable (InGeneration db tid fence) := by
  unfold InGeneration
  infer_instance

/-- The call takes the task out of the generation. -/
def Resolves (host : RecoveryHost PlanIdentity) (s : RecoveryFarm) (tid fence : ℕ)
    (call : RecoveryCall) : Prop :=
  InGeneration s.db tid fence ∧ ¬ InGeneration (s.perform host call).2.db tid fence

instance resolvesDecidable (host : RecoveryHost PlanIdentity) (s : RecoveryFarm) (tid fence : ℕ)
    (call : RecoveryCall) : Decidable (Resolves host s tid fence call) :=
  inferInstanceAs (Decidable (_ ∧ _))

/-- How many calls of a run take the task out of the generation. -/
def resolutions (host : RecoveryHost PlanIdentity) (tid fence : ℕ) : RecoveryFarm → List RecoveryCall → ℕ
  | _, [] => 0
  | s, call :: calls =>
      (if Resolves host s tid fence call then 1 else 0) +
        resolutions host tid fence (s.perform host call).2 calls

/-- The row of the task, its log and its intents are as they were. -/
structure Untouched (db db' : TaskDb) (tid : ℕ) : Prop where
  row : db'.tasks.row tid = db.tasks.row tid
  log : logOf db' tid = logOf db tid
  intents : ∀ id, (db'.outbox.row id).filter (·.taskId = tid) =
    (db.outbox.row id).filter (·.taskId = tid)

/-- The call raises or reports no change, and leaves the tables as it opened them. -/
def Quiet (host : RecoveryHost PlanIdentity) (s : RecoveryFarm) (call : RecoveryCall) : Prop :=
  ((∃ e, (s.perform host call).1 = .error e) ∨ (s.perform host call).1 = .ok 0) ∧
    (s.perform host call).2.db = call.opened host s.db

variable {s t : RecoveryFarm} {call : RecoveryCall} {calls : List RecoveryCall} {tid fence : ℕ}

/-- Every task keeps its fence, and one that runs was running before. -/
theorem RecoveryStep.keeps_fence (h : RecoveryStep host s call) {k : ℕ} {r : TaskRow}
    (hr : s.db.tasks.row k = some r) :
    ∃ r', (s.perform host call).2.db.tasks.row k = some r' ∧ r'.fencingToken = r.fencingToken ∧
      (r'.state = .running → r.state = .running) := by
  obtain ⟨r₀, hr₀, hsame⟩ := exists_opened_row host call hr
  have hfence : r₀.fencingToken = r.fencingToken := by rcases hsame with rfl | rfl <;> rfl
  have hstate : r₀.state = r.state := by rcases hsame with rfl | rfl <;> rfl
  cases h with
  | quiet reply same => exact ⟨r₀, same ▸ hr₀, hfence, fun hrun => hstate ▸ hrun⟩
  | bound tid r' id o job now about reply binds adopts =>
    rw [binds.rewrites.rows]
    by_cases hk : k = tid
    · obtain rfl : r' = r₀ := Option.some.inj (binds.rewrites.present.symm.trans (hk ▸ hr₀))
      refine ⟨_, if_pos hk, hfence, fun hrun => ?_⟩
      cases hrun
    · exact ⟨r₀, (if_neg hk).trans hr₀, hfence, fun hrun => hstate ▸ hrun⟩
  | reaped n about noPlan reply reaps =>
    rcases reaps.rows k with ⟨hrow, -⟩ | ⟨r₁, r', hr₁, -, hr', hqueued, hkept, -⟩
    · exact ⟨r₀, hrow.trans hr₀, hfence, fun hrun => hstate ▸ hrun⟩
    · obtain rfl : r₁ = r₀ := Option.some.inj (hr₁.symm.trans hr₀)
      refine ⟨r', hr', hkept.trans hfence, fun hrun => ?_⟩
      rw [hqueued] at hrun
      cases hrun

/-- A task that has left a generation does not come back to it. -/
theorem RecoveryStep.left (h : RecoveryStep host s call) (hs : (s.db.tasks.row tid).isSome = true)
    (hleft : ¬ InGeneration s.db tid fence) :
    ¬ InGeneration (s.perform host call).2.db tid fence := by
  obtain ⟨r, hr⟩ := Option.isSome_iff_exists.1 hs
  obtain ⟨r', hr', hkept, hran⟩ := h.keeps_fence hr
  rintro ⟨row, hrow, hrun, hfence⟩
  obtain rfl : r' = row := Option.some.inj (hr'.symm.trans hrow)
  exact hleft ⟨r, hr, hran hrun, hkept ▸ hfence⟩

/-- The step lemma: a call that does not take the task out of its generation is quiet, or is about
other tasks. -/
theorem RecoveryStep.others (h : RecoveryStep host s call)
    (hfence : ∀ r ∈ s.db.tasks.row tid, r.fencingToken = fence)
    (hresolves : ¬ Resolves host s tid fence call) :
    Quiet host s call ∨
      call.task ≠ some tid ∧ Untouched (call.opened host s.db) (s.perform host call).2.db tid ∧
        ∃ k, k ≠ tid ∧ ∃ r ∈ s.db.tasks.row k, r.state = .running := by
  have hran : ∀ {k r}, (call.opened host s.db).tasks.row k = some r → r.state = .running →
      ∃ r₀ ∈ s.db.tasks.row k, r₀.state = .running := by
    intro k r hr hrun
    obtain ⟨r₀, hr₀, hsame | hsame⟩ := of_opened_row hr <;> subst hsame <;> exact ⟨_, hr₀, hrun⟩
  have hgeneration : ∀ {r}, (call.opened host s.db).tasks.row tid = some r → r.state = .running →
      InGeneration s.db tid fence := by
    intro r hr hrun
    obtain ⟨r₀, hr₀, hrun₀⟩ := hran hr hrun
    exact ⟨r₀, hr₀, hrun₀, hfence r₀ hr₀⟩
  cases h with
  | quiet reply same => exact .inl ⟨reply, same⟩
  | bound tid' r id o job now about reply binds adopts =>
    by_cases hk : tid = tid'
    · subst hk
      refine absurd ⟨hgeneration binds.rewrites.present binds.running, ?_⟩ hresolves
      rintro ⟨row, hrow, hrun, -⟩
      rw [binds.rewrites.rows, if_pos rfl] at hrow
      obtain rfl := Option.some.inj hrow
      cases hrun
    · refine .inr ⟨fun htask => hk (Option.some.inj (htask.symm.trans about)), ⟨?_, ?_, fun id' => ?_⟩,
        tid', Ne.symm hk, hran binds.rewrites.present binds.running⟩
      · rw [binds.rewrites.rows, if_neg hk]
      · obtain ⟨u, hu, hlog⟩ := binds.logged
        simp only [logOf, hlog, List.filter_append]
        simp [hu, Ne.symm hk]
      · rw [binds.outbox, Table.modify_row]
        by_cases hid : id' = id
        · rw [if_pos hid, hid, binds.intent]
          simp [Option.filter, acknowledge, binds.task, Ne.symm hk]
        · rw [if_neg hid]
  | reaped n about noPlan reply reaps =>
    by_cases hn : n = 0
    · exact .inl ⟨.inr (hn ▸ reply), reaps.none hn⟩
    rcases reaps.rows tid with ⟨hrow, hlog⟩ | ⟨r, r', hr, hrun, hr', hqueued, -⟩
    · obtain ⟨k, r, r', hr, hrun, hr', hqueued, -⟩ := reaps.some hn
      refine .inr ⟨by simp [about], ⟨hrow, hlog, fun id => by rw [reaps.outbox]⟩, k, ?_, hran hr hrun⟩
      rintro rfl
      rw [hrow, hr] at hr'
      obtain rfl := Option.some.inj hr'
      rw [hqueued] at hrun
      cases hrun
    · refine absurd ⟨hgeneration hr hrun, ?_⟩ hresolves
      rintro ⟨row, hrow, hrun', -⟩
      obtain rfl : r' = row := Option.some.inj (hr'.symm.trans hrow)
      rw [hqueued] at hrun'
      cases hrun'

/-- What was adopted stays as the adoption left it. -/
theorem RecoveryStep.keeps_adopted (h : RecoveryStep host s call) {args : AdoptArgs}
    {compute : ComputeQueue.QueueDb} (hs : Adopted args compute s.db) :
    Adopted args compute (s.perform host call).2.db := by
  obtain ⟨hbound, row, outbox, hrow, hout, htask, hadopted⟩ := hs.opened host call
  have hstate : row.state = .deferred :=
    (of_decide_eq_true (of_decide_eq_true hadopted).2.1).1
  have hidle : ∀ r, (call.opened host s.db).tasks.row args.taskId = some r →
      r.state ≠ .running := by
    rintro r hr hrun
    obtain rfl : row = r := Option.some.inj (hrow.symm.trans hr)
    rw [hstate] at hrun
    cases hrun
  refine ⟨hbound, row, outbox, ?_, ?_, htask, hadopted⟩
  · cases h with
    | quiet reply same => exact same ▸ hrow
    | bound tid r id o job now about reply binds adopts =>
      have hk : args.taskId ≠ tid := by
        rintro rfl
        exact hidle r binds.rewrites.present binds.running
      rw [binds.rewrites.rows, if_neg hk, hrow]
    | reaped n about noPlan reply reaps =>
      rcases reaps.rows args.taskId with ⟨hsame, -⟩ | ⟨r, r', hr, hrun, -⟩
      · rw [hsame, hrow]
      · exact absurd hrun (hidle r hr)
  · cases h with
    | quiet reply same => exact same ▸ hout
    | bound tid r id o job now about reply binds adopts =>
      have hid : args.materializationId ≠ id := by
        rintro rfl
        obtain rfl : outbox = o := Option.some.inj (hout.symm.trans binds.intent)
        have hk : args.taskId = tid := htask.symm.trans binds.task
        exact hidle r (hk ▸ binds.rewrites.present) binds.running
      rw [binds.outbox, Table.modify_row, if_neg hid, hout]
    | reaped n about noPlan reply reaps => rw [reaps.outbox, hout]

@[simp] theorem perform_compute (s : RecoveryFarm) (call : RecoveryCall) :
    (s.perform host call).2.compute = s.compute := by
  cases call <;> rfl

/-- A call that has adopted by arguments leaves the tables adopted by them. -/
theorem adopted_of_reply {args : AdoptArgs} (hargs : call.adoption host = some args)
    (hreply : (s.perform host call).1 = .ok 1) :
    Adopted args s.compute (s.perform host call).2.db := by
  cases (recoveryStep s call : RecoveryStep host s call) with
  | quiet reply same => rcases reply with ⟨e, he⟩ | he <;> rw [hreply] at he <;> cases he
  | bound tid r id o job now about reply binds adopts => exact (adopts args hargs).adopted
  | reaped n about noPlan reply reaps => rw [hargs] at noPlan; cases noPlan

/-- A call that asks for an adoption that was made is quiet and reports 0. -/
theorem reply_of_adopted {args : AdoptArgs} (hargs : call.adoption host = some args)
    (hs : Adopted args s.compute s.db) :
    (s.perform host call).1 = .ok 0 ∧ (s.perform host call).2.db = call.opened host s.db := by
  have hs := hs.opened host call
  cases call with
  | adopt w args' now clock =>
    obtain rfl : args' = args := Option.some.inj hargs
    exact hs.again now clock (s.stores w)
  | apply farmDbPath computeDbPath plan expected now clock =>
    cases hcheck : checkPlan host farmDbPath computeDbPath plan expected with
    | error e =>
      simp only [RecoveryCall.adoption, hcheck] at hargs
      cases hargs
    | ok u =>
      obtain rfl : plan.entry.args = args := by
        simpa only [RecoveryCall.adoption, hcheck, Except.toOption, Option.map_some,
          Option.some.injEq] using hargs
      have hopened : (RecoveryCall.apply farmDbPath computeDbPath plan expected now clock).opened
          host s.db = migratePriorityScale s.db := by
        simp [RecoveryCall.opened, RecoveryCall.opens, hcheck, Except.toOption]
      rw [hopened] at hs ⊢
      simp only [RecoveryFarm.perform, applyPlan, hcheck]
      exact hs.again _ _ _
  | commit w tid id job now clock => cases hargs
  | reconcile w reason now clock => cases hargs
  | «open» w ownerId leaseSeconds floor => cases hargs

/-- No call brings a priority of the old scale back. -/
theorem RecoveryStep.keeps_scaled (h : RecoveryStep host s call)
    (hs : Scaled (call.opened host s.db)) : Scaled (s.perform host call).2.db := by
  intro k r hr
  cases h with
  | quiet reply same => exact hs k r (same ▸ hr)
  | bound tid r' id o job now about reply binds adopts =>
    rw [binds.rewrites.rows] at hr
    split_ifs at hr with hk
    · obtain rfl := Option.some.inj hr
      exact hs tid r' binds.rewrites.present
    · exact hs k r hr
  | reaped n about noPlan reply reaps =>
    rcases reaps.rows k with ⟨hrow, -⟩ | ⟨r₁, r', hr₁, -, hr', -, -, hpriority⟩
    · exact hs k r (hrow ▸ hr)
    · obtain rfl : r' = r := Option.some.inj (hr'.symm.trans hr)
      rw [legacyPriority, hpriority]
      exact hs k r₁ hr₁

/-! ## Runs -/

theorem scaled_of_steps (h : (recoveryFarm host).Steps s calls t)
    (hs : Scaled s.db ∨ ∃ call ∈ calls, call.opens host = true) : Scaled t.db := by
  induction h with
  | nil => exact hs.resolve_right (by simp)
  | @cons s t call calls ha rest ih =>
    refine ih ?_
    have hstep : RecoveryStep host s call := recoveryStep s call
    rcases hs with hs | ⟨c, hc, hopens⟩
    · exact .inl (hstep.keeps_scaled (by rwa [hs.opened]))
    · rcases List.mem_cons.1 hc with rfl | hc
      · refine .inl (hstep.keeps_scaled ?_)
        rw [RecoveryCall.opened, if_pos hopens]
        exact scaled_migratePriorityScale s.db
      · exact .inr ⟨c, hc, hopens⟩

theorem adopted_of_steps {args : AdoptArgs} (h : (recoveryFarm host).Steps s calls t)
    (hs : Adopted args s.compute s.db) : Adopted args t.compute t.db := by
  induction h with
  | nil => exact hs
  | cons ha rest ih =>
    refine ih ?_
    rw [recoveryFarm_step, perform_compute]
    exact (recoveryStep _ _).keeps_adopted hs

theorem fence_of_steps (h : (recoveryFarm host).Steps s calls t) {r : TaskRow}
    (hr : s.db.tasks.row tid = some r) :
    ∃ r', t.db.tasks.row tid = some r' ∧ r'.fencingToken = r.fencingToken := by
  induction h generalizing r with
  | nil => exact ⟨r, hr, rfl⟩
  | cons ha rest ih =>
    obtain ⟨r₁, hr₁, hfence₁, -⟩ := (recoveryStep _ _ : RecoveryStep host _ _).keeps_fence hr
    obtain ⟨r₂, hr₂, hfence₂⟩ := ih hr₁
    exact ⟨r₂, hr₂, hfence₂.trans hfence₁⟩

theorem compute_of_steps (h : (recoveryFarm host).Steps s calls t) : t.compute = s.compute := by
  induction h with
  | nil => rfl
  | cons ha rest ih => rw [ih, recoveryFarm_step, perform_compute]

theorem resolutions_of_left (calls : List RecoveryCall) (hs : (s.db.tasks.row tid).isSome = true)
    (hleft : ¬ InGeneration s.db tid fence) : resolutions host tid fence s calls = 0 := by
  induction calls generalizing s with
  | nil => rfl
  | cons call calls ih =>
    have hstep : RecoveryStep host s call := recoveryStep s call
    obtain ⟨r, hr⟩ := Option.isSome_iff_exists.1 hs
    obtain ⟨r', hr', -⟩ := hstep.keeps_fence hr
    rw [resolutions, if_neg fun h => hleft h.1,
      ih (Option.isSome_iff_exists.2 ⟨r', hr'⟩) (hstep.left hs hleft)]

theorem resolutions_le_one (calls : List RecoveryCall)
    (hs : (s.db.tasks.row tid).isSome = true) : resolutions host tid fence s calls ≤ 1 := by
  induction calls generalizing s with
  | nil => exact Nat.zero_le 1
  | cons call calls ih =>
    obtain ⟨r, hr⟩ := Option.isSome_iff_exists.1 hs
    obtain ⟨r', hr', -⟩ := (recoveryStep s call : RecoveryStep host s call).keeps_fence hr
    have hkept := Option.isSome_iff_exists.2 ⟨r', hr'⟩
    rw [resolutions]
    split_ifs with hresolves
    · rw [resolutions_of_left calls hkept hresolves.2]
    · rw [Nat.zero_add]
      exact ih hkept

/-- What holds of a run of the competing calls and of any call after it. -/
structure ResolvedOnce (host : RecoveryHost PlanIdentity) (tid fence : ℕ) (s : RecoveryFarm)
    (calls : List RecoveryCall) (t : RecoveryFarm) : Prop where
  once : resolutions host tid fence s calls ≤ 1
  others : ∀ call, ¬ Resolves host t tid fence call →
    Quiet host t call ∨
      call.task ≠ some tid ∧ Untouched (call.opened host t.db) (t.perform host call).2.db tid
  opened : ∀ call : RecoveryCall, (call.opened host t.db).outbox = t.db.outbox ∧
    (call.opened host t.db).transitions = t.db.transitions ∧
    ∀ k, (call.opened host t.db).tasks.row k = t.db.tasks.row k ∨
      call.opens host = true ∧
        (call.opened host t.db).tasks.row k = (t.db.tasks.row k).map scaledTask
  openedOnce : (∃ call ∈ calls, call.opens host = true) →
    ∀ call : RecoveryCall, call.opened host t.db = t.db
  alone : (∀ k r, t.db.tasks.row k = some r → r.state = .running → k = tid) →
    ∀ call, ¬ Resolves host t tid fence call → Quiet host t call
  again : ∀ before after m call call' args, calls = before ++ call :: after →
    (recoveryFarm host).Steps s before m → call.adoption host = some args →
    (m.perform host call).1 = .ok 1 → call'.adoption host = some args →
    (t.perform host call').1 = .ok 0 ∧ (t.perform host call').2.db = call'.opened host t.db
  fence : ∀ call k, ((t.perform host call).2.db.tasks.row k).map TaskRow.fencingToken =
    (t.db.tasks.row k).map TaskRow.fencingToken
  compute : t.compute = s.compute ∧ ∀ call, (t.perform host call).2.compute = t.compute

/-- The rest of a run after its first part and a call. -/
theorem steps_after {before after : List RecoveryCall} {m : RecoveryFarm}
    (h : (recoveryFarm host).Steps s (before ++ call :: after) t)
    (hm : (recoveryFarm host).Steps s before m) :
    (recoveryFarm host).Steps (m.perform host call).2 after t := by
  induction hm with
  | nil =>
    cases h with
    | cons _ rest => exact rest
  | cons _ _ ih =>
    cases h with
    | cons _ rest => exact ih rest

theorem RecoveryStep.same_fence (h : RecoveryStep host s call) (k : ℕ) :
    ((s.perform host call).2.db.tasks.row k).map TaskRow.fencingToken =
      (s.db.tasks.row k).map TaskRow.fencingToken := by
  cases hr : s.db.tasks.row k with
  | some r =>
    obtain ⟨r', hr', hfence, -⟩ := h.keeps_fence hr
    rw [hr', Option.map_some, Option.map_some, hfence]
  | none =>
    have hr : (call.opened host s.db).tasks.row k = none := by
      rcases opened_row host call k with heq | heq <;> rw [heq, hr]
      rfl
    cases h with
    | quiet reply same => rw [same, hr]
    | bound tid r id o job now about reply binds adopts =>
      have hk : k ≠ tid := by
        rintro rfl
        rw [binds.rewrites.present] at hr
        cases hr
      rw [binds.rewrites.rows, if_neg hk, hr]
    | reaped n about noPlan reply reaps =>
      rcases reaps.rows k with ⟨hrow, -⟩ | ⟨r, _, hr', -⟩
      · rw [hrow, hr]
      · rw [hr] at hr'
        cases hr'

/-- Each generation of a task is resolved once: at most one of the competing calls takes the task
out of it, the others leave the task alone but for the priorities that opening a store translates,
and an adoption that is applied again changes nothing. It does not matter which type the task has,
whether its job is queued and what the clocks show. -/
theorem resolved_once (h : (recoveryFarm host).Steps s calls t) (hs : InGeneration s.db tid fence) :
    ResolvedOnce host tid fence s calls t := by
  obtain ⟨row, hrow, hrun, rfl⟩ := hs
  have hfence : ∀ r ∈ t.db.tasks.row tid, r.fencingToken = row.fencingToken := by
    intro r hr
    obtain ⟨r', hr', hsame⟩ := fence_of_steps h hrow
    obtain rfl : r' = r := Option.some.inj (hr'.symm.trans hr)
    exact hsame
  refine ⟨resolutions_le_one calls (Option.isSome_iff_exists.2 ⟨row, hrow⟩), fun call hresolves => ?_,
    fun call => ⟨opened_outbox host call, opened_transitions host call, fun k => ?_⟩,
    fun hopens call => (scaled_of_steps h (.inr hopens)).opened call,
    fun honly call hresolves => ?_, ?_, fun call k => (recoveryStep t call).same_fence k, ?_,
    fun call => perform_compute t call⟩
  · exact ((recoveryStep t call).others hfence hresolves).imp id fun h => ⟨h.1, h.2.1⟩
  · by_cases hopens : call.opens host = true
    · exact (opened_row host call k).imp id fun heq => ⟨hopens, heq⟩
    · rw [RecoveryCall.opened, if_neg hopens]
      exact .inl rfl
  · refine ((recoveryStep t call).others hfence hresolves).resolve_right ?_
    rintro ⟨-, -, k, hk, r, hr, hrunning⟩
    exact hk (honly k r hr hrunning)
  · rintro before after m call call' args rfl hm hargs hreply hargs'
    have hadopted := adopted_of_reply hargs hreply
    have hcompute : (m.perform host call).2.compute = m.compute := perform_compute m call
    rw [← hcompute] at hadopted
    exact reply_of_adopted hargs' (adopted_of_steps (steps_after h hm) hadopted)
  · exact compute_of_steps h

/-! ## A sweep whose claim expires -/

def recoveryHost : RecoveryHost PlanIdentity where
  resolve path := path
  digest identity := identity.entry.materializationId
  resolve_resolve _ := rfl

def sweepArgs : EnqueueArgs :=
  ⟨{ taskKey := "sweep", taskType := "run_sweep" }, 100, none, .queued, "", none, 0⟩

def sweepIntent : Intent := ⟨materializationIdOf 1 1, "specs/sweep.json", "sha256:sweep", "", 100⟩

def waitingArgs : EnqueueArgs :=
  ⟨{ taskKey := "waiting", taskType := "run_sweep" }, 2, none, .queued, "", none, 0⟩

/-- The sweep is claimed at 10 for 300 seconds and its intent is prepared; another task waits with a
priority that reads as one of the old scale. -/
def claimedSweep : TaskFarm :=
  [Action.enqueue sweepArgs 5, .claim 0 {} ⟨10, 10⟩, .prepare 0 1 sweepIntent none ⟨11, 11⟩,
    .enqueue waitingArgs 12].foldl
    TaskFarm.step ⟨TaskDb.empty, fun w => .open s!"worker-{w}" 300 0, fun _ => none⟩

def sweepJob : ComputeQueue.JobRow where
  jobId := 7
  specPath := sweepIntent.specPath
  status := .queued
  priority := 100
  createdAt := ""
  mutationProtocol := "fenced.v2"
  materializationId := some sweepIntent.materializationId
  materializationDigest := some sweepIntent.specDigest

/-- The compute job is queued, but the worker crashes before it acknowledges the intent. -/
def sweepFarm : RecoveryFarm where
  db := claimedSweep.db
  compute :=
    { ComputeQueue.QueueDb.empty with
      queue := Table.empty.insert 7 sweepJob
      materializations := Table.empty.insert sweepIntent.materializationId
        ⟨7, sweepIntent.specPath, sweepIntent.specDigest, ""⟩ }
  stores := claimedSweep.stores

def sweepEntry : RecoveryEntry where
  taskId := 1
  taskType := "run_sweep"
  state := .running
  fencingToken := 1
  mutationSeq := 1
  materializationId := sweepIntent.materializationId
  outboxState := .pending
  queueJobId := 7
  queueStatus := .queued
  specPath := sweepIntent.specPath
  specDigest := sweepIntent.specDigest
  alreadyAdopted := false

def sweepPlan : RecoveryPlan where
  schema := recoverySchema
  farmDatabase := "farm_tasks.sqlite"
  computeDatabase := "jobs.sqlite"
  entry := sweepEntry
  observedAt := 400
  planDigest := sweepIntent.materializationId

example : (buildPlan recoveryHost "farm_tasks.sqlite" "jobs.sqlite" 1 400 sweepFarm.db
    sweepFarm.compute).toOption = some sweepPlan := by decide +kernel

def applySweepPlan (now : ℚ) : RecoveryCall :=
  .apply "farm_tasks.sqlite" "jobs.sqlite" sweepPlan sweepPlan.planDigest (some now)
    ⟨now, now, ⟨now, now⟩⟩

/-- Recovery comes too early at first, then adopts the job, and the slow worker and the others come
too late. -/
def competingCalls : List RecoveryCall :=
  [.adopt 1 sweepEntry.args none ⟨100, 100⟩, applySweepPlan 400,
    .commit 0 1 sweepIntent.materializationId 7 none ⟨20, 20⟩,
    .reconcile 2 "orphan_running_requeued" none ⟨500, 500⟩, applySweepPlan 600]

theorem resolved_once_sweep :
    resolutions recoveryHost 1 1 sweepFarm competingCalls = 1 ∧
      ResolvedOnce recoveryHost 1 1 sweepFarm competingCalls
        ((recoveryFarm recoveryHost).run sweepFarm competingCalls) := by
  have henabled : (recoveryFarm recoveryHost).Runs sweepFarm competingCalls := by
    simp [Machine.Runs, competingCalls, recoveryFarm]
  exact ⟨by decide +kernel, resolved_once henabled.steps (by decide +kernel)⟩

/-- A plan that is refused because the claim still lives changes the priority of the task that
waits. -/
theorem refused_plan_translates_priorities :
    ¬ ∀ call, ¬ Resolves recoveryHost sweepFarm 1 1 call →
      (∃ e, (sweepFarm.perform recoveryHost call).1 = .error e) →
        (sweepFarm.perform recoveryHost call).2.db.tasks = sweepFarm.db.tasks := by
  intro h
  have hrefused : (sweepFarm.perform recoveryHost (applySweepPlan 100)).1.isOk = false := by
    decide +kernel
  have herror : ∃ e, (sweepFarm.perform recoveryHost (applySweepPlan 100)).1 = .error e := by
    cases hreply : (sweepFarm.perform recoveryHost (applySweepPlan 100)).1 with
    | error e => exact ⟨e, rfl⟩
    | ok n =>
      rw [hreply] at hrefused
      cases hrefused
  have hsame := h (applySweepPlan 100) (by decide +kernel) herror
  have hpriority := congrArg (fun tasks => (tasks.row 2).map TaskRow.priority) hsame
  revert hpriority
  decide +kernel

end ResearchLab.FarmTasks
