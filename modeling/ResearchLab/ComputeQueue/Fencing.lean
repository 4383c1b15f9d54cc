import Mathlib
import ResearchLab.Foundation.Machine
import ResearchLab.ComputeQueue.Calls

/-!
# Fencing of the compute queue

Any number of workers, each with its own connection, and the transactions and statements of
their calls in any order. A call that has answered nothing yet is `Pending`: it keeps what it
read, and other connections may commit before its next statement.
-/
namespace ResearchLab.ComputeQueue
open Foundation

/-- The calls that carry a claim. -/
inductive Request
  | execute (now : Option ℚ)
  | renew (leaseSeconds : ℚ) (now : Option ℚ)
  | complete (runDirLabel : String) (now : Option ℚ)
  | fail (error : String) (now : Option ℚ)
  | publish (args : PublishArgs)

def Request.now : Request → Option ℚ
  | .execute now => now
  | .renew _ now => now
  | .complete _ now => now
  | .fail _ now => now
  | .publish args => args.now

/-- What a call keeps between its statements. -/
inductive Pending
  | execute (claim : Claim)
  | recheck (claim : Claim) (leaseSeconds : ℚ) (row : JobRow)
  | renew (claim : Claim) (leaseSeconds : ℚ) (row : JobRow)
  | finish (claim : Claim) (how : Finish) (row : JobRow)
  | publish (claim : Claim) (args : PublishArgs)

def Pending.claim : Pending → Claim
  | .execute claim => claim
  | .recheck claim _ _ => claim
  | .renew claim _ _ => claim
  | .finish claim _ _ => claim
  | .publish claim _ => claim

inductive Reply
  | raised (error : JobError)
  | waiting (next : Pending)
  | returned

def replyOf {α : Type} (next : α → Reply) : Except JobError α → Reply
  | .error e => .raised e
  | .ok a => next a

/-- The first statement of a call. -/
def begin (claim : Claim) (request : Request) (observed : ℚ) (conn : Connection)
    (db : QueueDb) : Reply × Connection × QueueDb :=
  match request with
  | .execute now =>
      let r := markJobExecutingCheck claim now observed conn db
      (replyOf (fun _ => .waiting (.execute claim)) r.1, r.2, db)
  | .renew leaseSeconds now =>
      let r := renewJobLeaseCheck claim leaseSeconds now observed conn db
      (replyOf (fun row => .waiting (.recheck claim leaseSeconds row)) r.1, r.2, db)
  | .complete label now =>
      let r := finishJobCheck claim (completeJob label) now observed conn db
      (replyOf (fun row => .waiting (.finish claim (completeJob label) row)) r.1, r.2)
  | .fail error now =>
      let r := finishJobCheck claim (failJob error) now observed conn db
      (replyOf (fun row => .waiting (.finish claim (failJob error) row)) r.1, r.2)
  | .publish args =>
      let r := publishCheck claim args observed conn
      (replyOf (fun _ => .waiting (.publish claim args)) r.1, r.2, db)

/-- What the surroundings answer to a later statement. -/
structure Observation where
  clock : Readings
  utc : String
  imported : Except String ℕ

/-- A later statement of a call. -/
def resume (pending : Pending) (obs : Observation) (conn : Connection) (db : QueueDb) :
    Reply × Connection × QueueDb :=
  match pending with
  | .execute claim =>
      let r := markJobExecutingWrite claim obs.clock.first conn db
      (replyOf (fun _ => .returned) r.1, r.2)
  | .recheck claim leaseSeconds row =>
      let r := renewJobLeaseRecheck claim obs.clock.first conn db
      (replyOf (fun _ => .waiting (.renew claim leaseSeconds row)) r.1, r.2, db)
  | .renew claim leaseSeconds row =>
      let r := renewJobLeaseWrite claim leaseSeconds row conn db
      (replyOf (fun _ => .returned) r.1, conn, r.2)
  | .finish claim how row =>
      let r := finishJobWrite claim how row obs.clock.first obs.utc conn db
      (replyOf (fun _ => .returned) r.1, r.2)
  | .publish claim args =>
      let r := publishWrite claim args obs.imported obs.clock obs.utc conn db
      (replyOf (fun _ => .returned) r.1, r.2)

def Reply.pending : Reply → Option Pending
  | .waiting next => some next
  | _ => none

structure Farm where
  db : QueueDb
  dirs : Directories
  conn : ℕ → Connection
  pending : ℕ → Option Pending

inductive Action
  | enqueue (args : EnqueueArgs) (utc : String)
  | ensure (args : EnqueueArgs) (fileDigest : String → Option String) (utc : String)
  | ensureRecovery (args : EnqueueArgs) (fileDigest : String → Option String) (utc : String)
  | claim (worker : ℕ) (args : ClaimArgs) (clock : Readings) (utc : String)
  | begin (worker : ℕ) (claim : Claim) (request : Request) (observed : ℚ)
  | resume (worker : ℕ) (obs : Observation)
  | reap (worker : ℕ) (now : Option ℚ) (clock : Readings)
  | recover (root : List String) (key : ℕ × ℕ) (row : PublicationRow) (now : ℚ)
  | connect (worker : ℕ) (conn : Connection)

/-- `connect` is also what follows a crash of the worker: the call it was in is lost. -/
def Farm.step (s : Farm) : Action → Farm
  | .enqueue args utc => { s with db := (enqueueExperiment args utc s.db).2 }
  | .ensure args fileDigest utc =>
      { s with db := (ensureExperimentQueued args fileDigest utc s.db).2 }
  | .ensureRecovery args fileDigest utc =>
      { s with db := (ensureRecovery args fileDigest utc s.db).2 }
  | .claim worker args clock utc =>
      let r := claimNextJob args clock utc (s.conn worker) s.db
      { s with db := r.2.2, conn := Function.update s.conn worker r.2.1 }
  | .begin worker claim request observed =>
      let r := begin claim request observed (s.conn worker) s.db
      { s with
        db := r.2.2, conn := Function.update s.conn worker r.2.1
        pending := Function.update s.pending worker r.1.pending }
  | .resume worker obs =>
      match s.pending worker with
      | none => s
      | some pending =>
          let r := resume pending obs (s.conn worker) s.db
          { s with
            db := r.2.2, conn := Function.update s.conn worker r.2.1
            pending := Function.update s.pending worker r.1.pending }
  | .reap worker now clock =>
      let r := reapStaleJobs now clock (s.conn worker) s.db
      { s with db := r.2.2, conn := Function.update s.conn worker r.2.1 }
  | .recover root key row now =>
      let r := recoverOne root key row now s.dirs s.db
      { s with db := r.2.2, dirs := r.2.1 }
  | .connect worker conn =>
      { s with
        conn := Function.update s.conn worker conn
        pending := Function.update s.pending worker none }

/-- A connection serves one call at a time. -/
def Farm.enabled (s : Farm) : Action → Prop
  | .claim worker .. => s.pending worker = none
  | .begin worker .. => s.pending worker = none
  | .reap worker .. => s.pending worker = none
  | _ => True

def computeQueue : Machine Farm Action where
  init s := s.db = QueueDb.empty ∧ ∀ worker, s.pending worker = none
  enabled := Farm.enabled
  step := Farm.step

/-! ## The invariant -/

/-- A pending finish is of `complete_job` or `fail_job`, for the fence of the row it read. -/
def Pending.Sound : Pending → Prop
  | .finish claim how row =>
      row.fencingToken = claim.fencingToken ∧ how.status ≠ .running
  | _ => True

structure Farm.Inv (s : Farm) : Prop where
  jobs : ∀ job, JobInv (s.db.view job)
  pending : ∀ worker p, s.pending worker = some p → p.Sound

theorem begin_moves (claim : Claim) (request : Request) (observed : ℚ) (conn : Connection)
    (db : QueueDb) : QueueMoves db (begin claim request observed conn db).2.2 := by
  have hfinish : ∀ how now, QueueMoves db
      (finishJobCheck claim how now observed conn db).2.2 := by
    intro how now
    simp only [finishJobCheck]
    split
    · exact .refl _
    split
    · exact .refl _
    · exact .of_same rfl rfl rfl
  cases request with
  | execute => exact .refl _
  | renew => exact .refl _
  | complete => exact hfinish _ _
  | fail => exact hfinish _ _
  | publish => exact .refl _

theorem resume_moves {pending : Pending} (hp : pending.Sound) (obs : Observation)
    (conn : Connection) {db : QueueDb} (hinv : ∀ job, JobInv (db.view job)) :
    QueueMoves db (resume pending obs conn db).2.2 := by
  cases pending with
  | execute claim => exact markJobExecutingWrite_moves ..
  | recheck => exact .refl _
  | renew claim leaseSeconds row => exact renewJobLeaseWrite_moves ..
  | finish claim how row => exact finishJobWrite_moves hp.1 hp.2 ..
  | publish claim args => exact publishWrite_moves _ _ _ _ _ _ (hinv _)

theorem finishJobCheck_ok {claim : Claim} {how : Finish} {now : Option ℚ} {observed : ℚ}
    {conn : Connection} {db : QueueDb} {row : JobRow}
    (h : (finishJobCheck claim how now observed conn db).1 = .ok row) :
    row.fencingToken = claim.fencingToken := by
  simp only [finishJobCheck] at h
  split at h
  · cases h
  split at h
  · next row' hrow =>
    obtain rfl : row' = row := by simpa using h
    exact (heldBy_iff.1 (assertJobClaim_eq_ok.1 hrow).2).2.2.1
  · cases h

theorem replyOf_pending {α : Type} {next : α → Reply} {r : Except JobError α} {p : Pending}
    (h : (replyOf next r).pending = some p) : ∃ a, r = .ok a ∧ (next a).pending = some p := by
  cases r with
  | error e => simp [replyOf, Reply.pending] at h
  | ok a => exact ⟨a, rfl, h⟩

theorem begin_sound {claim : Claim} {request : Request} {observed : ℚ} {conn : Connection}
    {db : QueueDb} {p : Pending}
    (h : (begin claim request observed conn db).1.pending = some p) : p.Sound := by
  cases request with
  | execute =>
    obtain ⟨_, -, ha⟩ := replyOf_pending h
    obtain rfl := Option.some.inj ha
    trivial
  | renew =>
    obtain ⟨_, -, ha⟩ := replyOf_pending h
    obtain rfl := Option.some.inj ha
    trivial
  | complete =>
    obtain ⟨row, hrow, ha⟩ := replyOf_pending h
    obtain rfl := Option.some.inj ha
    exact ⟨finishJobCheck_ok hrow, by simp [completeJob]⟩
  | fail =>
    obtain ⟨row, hrow, ha⟩ := replyOf_pending h
    obtain rfl := Option.some.inj ha
    exact ⟨finishJobCheck_ok hrow, by simp [failJob]⟩
  | publish =>
    obtain ⟨_, -, ha⟩ := replyOf_pending h
    obtain rfl := Option.some.inj ha
    trivial

theorem resume_sound {pending : Pending} {obs : Observation} {conn : Connection}
    {db : QueueDb} {p : Pending}
    (h : (resume pending obs conn db).1.pending = some p) : p.Sound := by
  cases pending with
  | recheck =>
    obtain ⟨_, -, ha⟩ := replyOf_pending h
    obtain rfl := Option.some.inj ha
    trivial
  | execute =>
    obtain ⟨_, -, ha⟩ := replyOf_pending h
    simp [Reply.pending] at ha
  | renew =>
    obtain ⟨_, -, ha⟩ := replyOf_pending h
    simp [Reply.pending] at ha
  | finish =>
    obtain ⟨_, -, ha⟩ := replyOf_pending h
    simp [Reply.pending] at ha
  | publish =>
    obtain ⟨_, -, ha⟩ := replyOf_pending h
    simp [Reply.pending] at ha

/-- The actions that leave the set of jobs and the bindings alone. -/
def Action.fills : Action → Bool
  | .enqueue .. => true
  | .ensure .. => true
  | .ensureRecovery .. => true
  | _ => false

theorem Farm.Inv.moves {s : Farm} (h : s.Inv) {a : Action} (ha : a.fills = false) :
    QueueMoves s.db (s.step a).db := by
  cases a with
  | enqueue => cases ha
  | ensure => cases ha
  | ensureRecovery => cases ha
  | claim => exact claimNextJob_moves ..
  | begin => exact begin_moves ..
  | resume worker obs =>
    simp only [Farm.step]
    split
    · exact .refl _
    · next p hp => exact resume_moves (h.pending _ _ hp) _ _ h.jobs
  | reap => exact reapStaleJobs_moves ..
  | recover => exact recoverOne_moves ..
  | connect => exact .refl _

theorem Farm.Inv.steps {s : Farm} (h : s.Inv) (a : Action) :
    QueueSteps s.db (s.step a).db := by
  cases ha : a.fills with
  | false => exact (h.moves ha).steps
  | true =>
    cases a with
    | enqueue args utc => exact enqueueExperiment_steps args utc s.db
    | ensure args fd utc => exact ensureExperimentQueued_steps args fd utc s.db
    | ensureRecovery args fd utc => exact ensureRecovery_steps args fd utc s.db
    | _ => cases ha

theorem Farm.Inv.step {s : Farm} (h : s.Inv) (a : Action) : (s.step a).Inv := by
  refine ⟨fun job => (h.jobs job).steps (h.steps a job), fun worker p hp => ?_⟩
  cases a with
  | begin w claim request observed =>
    simp only [Farm.step, Function.update_apply] at hp
    split_ifs at hp
    · exact begin_sound hp
    · exact h.pending _ _ hp
  | resume w obs =>
    simp only [Farm.step] at hp
    split at hp
    · exact h.pending _ _ hp
    · simp only [Function.update_apply] at hp
      split_ifs at hp
      · exact resume_sound hp
      · exact h.pending _ _ hp
  | connect w conn =>
    simp only [Farm.step, Function.update_apply] at hp
    split_ifs at hp
    exact h.pending _ _ hp
  | _ => exact h.pending _ _ hp

theorem jobInv_empty (job : ℕ) : JobInv (QueueDb.empty.view job) :=
  ⟨fun _ => ⟨rfl, fun _ => rfl⟩, fun row h => by simp [QueueDb.view, QueueDb.empty] at h⟩

theorem farmInv_of_reachable {s : Farm} (hs : computeQueue.Reachable s) : s.Inv :=
  hs.invariant (fun s h => ⟨fun job => h.1 ▸ jobInv_empty job, by simp [h.2]⟩)
    fun _ a _ h _ => h.step a

/-! ## Stale callers -/

/-- The tables that carry authority are as they were. -/
structure SameTables (db db' : QueueDb) : Prop where
  queue : db'.queue = db.queue
  attempts : db'.attempts = db.attempts
  publications : db'.publications = db.publications

theorem SameTables.refl (db : QueueDb) : SameTables db db := ⟨rfl, rfl, rfl⟩

/-- What a call raises about its arguments before it looks at the claim. -/
def precheck (claim : Claim) (request : Request) (db : QueueDb) : Option JobError :=
  match request with
  | .execute _ => none
  | .renew leaseSeconds _ =>
      if leaseSeconds ≤ 0 then some (.value "lease_seconds must be positive") else none
  | .complete _ _ | .fail _ _ =>
      if (db.queue.row claim.jobId).isNone then some (.key "unknown job") else none
  | .publish args =>
      if !relativeTo (provisionalRoot args.privateRoot) args.provisionalDir then
        some (.value "not in the subpath")
      else if args.generation = .malformed then
        some (.other "generation file is not an object")
      else none

theorem finishJobCheck_stale {claim : Claim} (how : Finish) (now : Option ℚ) {observed : ℚ}
    {conn : Connection} {db : QueueDb} (h : ¬ Current claim (epoch conn now observed) db) :
    SameTables db (finishJobCheck claim how now observed conn db).2.2 ∧
      (finishJobCheck claim how now observed conn db).1 = .error
        (if (db.queue.row claim.jobId).isNone then .key "unknown job"
          else .stale "stale claim for job") := by
  simp only [finishJobCheck]
  cases hr : db.queue.row claim.jobId with
  | none => exact ⟨.refl _, rfl⟩
  | some row =>
    simp only [assertJobClaim_of_not_current h]
    exact ⟨⟨rfl, rfl, rfl⟩, rfl⟩

/-- A stale caller gets no further than its first statement, except that a publication
looks at the claim inside its transaction only. -/
theorem begin_stale {claim : Claim} {request : Request} {observed : ℚ} {conn : Connection}
    {db : QueueDb} (h : ¬ Current claim (epoch conn request.now observed) db) :
    SameTables db (begin claim request observed conn db).2.2 ∧
      match precheck claim request db with
      | some e => (begin claim request observed conn db).1 = .raised e
      | none => (∃ m, (begin claim request observed conn db).1 = .raised (.stale m)) ∨
          ∃ args, request = .publish args ∧
            (begin claim request observed conn db).1 = .waiting (.publish claim args) := by
  cases request with
  | execute now =>
    refine ⟨.refl _, Or.inl ⟨"stale claim for job", ?_⟩⟩
    simp only [Request.now] at h
    simp only [begin, markJobExecutingCheck, assertJobClaim_of_not_current h]
    rfl
  | renew leaseSeconds now =>
    refine ⟨.refl _, ?_⟩
    simp only [Request.now] at h
    simp only [precheck, begin, renewJobLeaseCheck, assertJobClaim_of_not_current h]
    by_cases hl : leaseSeconds ≤ 0
    · simp [hl, replyOf]
    · simp [hl, replyOf]
  | complete label now =>
    obtain ⟨htables, hreply⟩ := finishJobCheck_stale (completeJob label) now h
    refine ⟨htables, ?_⟩
    simp only [precheck, begin, hreply]
    cases (db.queue.row claim.jobId).isNone <;> simp [replyOf]
  | fail error now =>
    obtain ⟨htables, hreply⟩ := finishJobCheck_stale (failJob error) now h
    refine ⟨htables, ?_⟩
    simp only [precheck, begin, hreply]
    cases (db.queue.row claim.jobId).isNone <;> simp [replyOf]
  | publish args =>
    refine ⟨.refl _, ?_⟩
    simp only [precheck, begin, publishCheck]
    by_cases hroot : relativeTo (provisionalRoot args.privateRoot) args.provisionalDir
    · cases hg : args.generation with
      | unreadable => simp [hroot, replyOf]
      | malformed => simp [hroot, replyOf]
      | identity schema generation =>
        by_cases hm : schema ≠ "strategy_lab_publication_generation.v1" ∨ generation ≠ claim
        · simp [hroot, hm, replyOf]
        · simp [hroot, hm, replyOf]
    · simp [hroot, replyOf]

/-- Whatever happened between the statements of a call, the next one raises and changes
nothing unless the claim is current at the time the connection reads. -/
theorem resume_stale {pending : Pending} {obs : Observation} {conn : Connection}
    {db : QueueDb}
    (h : ¬ Current pending.claim (resume pending obs conn db).2.1.authorityTimeFloor db) :
    SameTables db (resume pending obs conn db).2.2 ∧
      ∃ m, (resume pending obs conn db).1 = .raised (.stale m) := by
  have hguard : ∀ {claim : Claim} {now : ℚ} {row : JobRow},
      ¬ Current claim now db → db.queue.row claim.jobId = some row →
        guardHeld claim now row = false := fun hc hr =>
    Bool.eq_false_iff.2 fun hg => hc ⟨_, hr, heldBy_of_guardHeld hg⟩
  have hcas : ∀ {claim : Claim} {now : ℚ} {seq : ℕ} {f : JobRow → JobRow},
      ¬ Current claim now db → db.queue.compareAndSet claim.jobId
        (fun r => guardHeld claim now r ∧ r.mutationSeq = seq) f = none :=
    fun hc => Table.compareAndSet_eq_none.2 fun r hr => by simp [hguard hc hr]
  cases pending with
  | execute claim =>
    have hc : ¬ Current claim (epoch conn (some conn.authorityTimeFloor)
        obs.clock.first) db := by
      intro hc
      apply h
      simp only [resume, markJobExecutingWrite]
      split <;> exact hc
    have hheld : ((db.queue.row claim.jobId).map (guardHeld claim
        (epoch conn (some conn.authorityTimeFloor) obs.clock.first))).getD false = false := by
      cases hr : db.queue.row claim.jobId with
      | none => rfl
      | some row => simp [hguard hc hr]
    have hnone : ∀ f, db.attempts.compareAndSet (claim.jobId, claim.fencingToken)
        (fun a => a.ownerId = claim.ownerId ∧ a.state = .claimed ∧ false = true) f = none :=
      fun f => Table.compareAndSet_eq_none.2 fun a _ => by simp
    simp only [resume, markJobExecutingWrite, hheld, hnone]
    exact ⟨.refl _, _, rfl⟩
  | recheck claim leaseSeconds row =>
    simp only [resume, renewJobLeaseRecheck, Connection.advance, Pending.claim] at h ⊢
    rw [assertJobClaim_of_not_current h]
    exact ⟨.refl _, _, rfl⟩
  | renew claim leaseSeconds row =>
    simp only [resume, Pending.claim] at h
    simp only [resume, renewJobLeaseWrite]
    rw [hcas h]
    exact ⟨.refl _, _, rfl⟩
  | finish claim how row =>
    have hc : ¬ Current claim (epoch conn (some conn.authorityTimeFloor)
        obs.clock.first) db := by
      intro hc
      apply h
      simp only [resume, finishJobWrite]
      split <;> exact hc
    simp only [resume, finishJobWrite]
    rw [hcas hc]
    exact ⟨.refl _, _, rfl⟩
  | publish claim args =>
    simp only [resume, publishWrite, Pending.claim] at h ⊢
    by_cases hfirst : Current claim (epoch conn (some conn.authorityTimeFloor)
        obs.clock.first) db
    · obtain ⟨row, hrow⟩ := hfirst
      simp only [assertJobClaim_eq_ok.2 hrow] at h ⊢
      cases hi : obs.imported with
      | error e =>
        simp only [hi] at h
        exact absurd ⟨row, hrow⟩ h
      | ok count =>
        simp only [hi] at h ⊢
        by_cases hboundary : Current claim (epoch (conn.advance (epoch conn
            (some conn.authorityTimeFloor) obs.clock.first)) args.now obs.clock.second) db
        · obtain ⟨row', hrow'⟩ := hboundary
          simp only [assertJobClaim_eq_ok.2 hrow'] at h
          split at h <;> exact absurd ⟨row', hrow'⟩ h
        · rw [assertJobClaim_of_not_current hboundary]
          exact ⟨.refl _, _, rfl⟩
    · rw [assertJobClaim_of_not_current hfirst]
      exact ⟨.refl _, _, rfl⟩

/-- Fencing over every run: the shape of every job, the fate of stale callers, and the
finality of a terminal status. -/
theorem claims_are_fenced {s : Farm} (hs : computeQueue.Reachable s) :
    (∀ job row, s.db.queue.row job = some row → RowInv (s.db.view job) row) ∧
    (∀ claim request observed conn,
      ¬ Current claim (epoch conn request.now observed) s.db →
        SameTables s.db (begin claim request observed conn s.db).2.2 ∧
          match precheck claim request s.db with
          | some e => (begin claim request observed conn s.db).1 = .raised e
          | none => (∃ m, (begin claim request observed conn s.db).1 = .raised (.stale m)) ∨
              ∃ args, request = .publish args ∧
                (begin claim request observed conn s.db).1 =
                  .waiting (.publish claim args)) ∧
    (∀ pending obs conn,
      ¬ Current pending.claim (resume pending obs conn s.db).2.1.authorityTimeFloor s.db →
        SameTables s.db (resume pending obs conn s.db).2.2 ∧
          ∃ m, (resume pending obs conn s.db).1 = .raised (.stale m)) ∧
    (∀ as t job row, computeQueue.Steps s as t → s.db.queue.row job = some row →
      row.status.terminal = true → t.db.view job = s.db.view job) := by
  have hinv := farmInv_of_reachable hs
  refine ⟨fun job row hrow => (hinv.jobs job).present row hrow,
    fun claim request observed conn h => begin_stale h,
    fun pending obs conn h => resume_stale h, fun as t job row hst hrow hterm => ?_⟩
  have hrun : JobSteps (s.db.view job) (t.db.view job) :=
    hst.relates (R := fun s t => JobSteps (s.db.view job) (t.db.view job))
      (fun _ => .refl) (fun _ _ _ => Relation.ReflTransGen.trans)
      (fun s a hr _ => (farmInv_of_reachable hr).steps a job) hs
  exact hrun.terminal hrow hterm

/-! ## A renewal with a bad lease -/

def idleFarm : Farm where
  db := .empty
  dirs := fun _ => false
  conn := fun _ => ⟨0, "compat-worker"⟩
  pending := fun _ => none

/-- One job, claimed by worker 0 under fence 1 until time 110. -/
def claimedRun : List Action :=
  [.enqueue ⟨"spec.yaml", 100, none, none⟩ "t0",
    .claim 0 ⟨some "worker-0", 10, some 100⟩ ⟨100, 100⟩ "t1"]

def claimedFarm : Farm := computeQueue.run idleFarm claimedRun

theorem claimedFarm_reachable : computeQueue.Reachable claimedFarm :=
  Machine.reachable_run claimedRun ⟨rfl, fun _ => rfl⟩ ⟨trivial, rfl, trivial⟩

def forgedClaim : Claim := ⟨1, "worker-1", 7⟩

theorem forgedClaim_not_current (now : ℚ) : ¬ Current forgedClaim now claimedFarm.db := by
  rintro ⟨row, hrow, hheld⟩
  have hfence : (claimedFarm.db.queue.row 1).map JobRow.fencingToken = some 1 := by
    decide +kernel
  obtain ⟨-, -, hf, -⟩ := heldBy_iff.1 hheld
  simp only [show claimedFarm.db.queue.row 1 = some row from hrow, Option.map_some, hf,
    forgedClaim, Option.some.injEq] at hfence
  omega

/-- A stale caller is told of its bad argument before it is told that it is stale. -/
theorem stale_renewal_raises_value_error :
    ¬ ∀ s, computeQueue.Reachable s → ∀ claim request observed conn e,
      ¬ Current claim (epoch conn request.now observed) s.db →
        (begin claim request observed conn s.db).1 = .raised e → ∃ m, e = .stale m := by
  intro h
  obtain ⟨m, hm⟩ := h claimedFarm claimedFarm_reachable forgedClaim (.renew 0 none) 105
    ⟨100, "compat-worker"⟩ (.value "lease_seconds must be positive")
    (forgedClaim_not_current _) (by simp [begin, renewJobLeaseCheck, replyOf])
  cases hm

theorem claims_are_fenced_claimedFarm :
    ∃ m, (begin forgedClaim (.renew 10 none) 105 ⟨100, "compat-worker"⟩
      claimedFarm.db).1 = .raised (.stale m) := by
  obtain ⟨-, hstale, -, -⟩ := claims_are_fenced claimedFarm_reachable
  obtain ⟨-, h⟩ := hstale forgedClaim (.renew 10 none) 105 ⟨100, "compat-worker"⟩
    (forgedClaim_not_current _)
  have hpre : precheck forgedClaim (.renew 10 none) claimedFarm.db = none := by
    norm_num [precheck]
  simp only [hpre] at h
  rcases h with h | ⟨_, hreq, _⟩
  · exact h
  · cases hreq

end ResearchLab.ComputeQueue
