import Mathlib
import ResearchLab.Foundation.Clock
import ResearchLab.Foundation.Table

/-!
# The compute queue

The tables `queue`, `job_attempts`, `artifact_publications`, `queue_materializations` and
`stale_claim_events`, and the calls that workers make on them. A call that checks its claim
outside the write transaction is several functions, `..Check` and `..Write`, because
another connection may commit between them. Every column that an operation reads or writes
is kept.
-/
namespace ResearchLab.ComputeQueue
open Foundation

inductive JobStatus
  | queued | running | completed | failed
  deriving DecidableEq

inductive AttemptState
  | claimed | executing | completed | failed | ambiguous | superseded
  deriving DecidableEq

inductive PublicationState
  | pendingRename | directoryPublished | published
  deriving DecidableEq

structure JobRow where
  jobId : ℕ
  specPath : String
  status : JobStatus
  priority : ℤ
  createdAt : String
  startedAt : Option String := none
  finishedAt : Option String := none
  attempts : ℕ := 0
  runDirLabel : Option String := none
  lastError : Option String := none
  claimOwner : Option String := none
  claimExpiresAt : Option ℚ := none
  fencingToken : ℕ := 0
  mutationProtocol : String
  mutationSeq : ℕ := 0
  materializationId : Option String := none
  materializationDigest : Option String := none

structure AttemptRow where
  ownerId : String
  state : AttemptState
  claimedAt : ℚ
  executingAt : Option ℚ := none
  finishedAt : Option ℚ := none
  detail : String := ""

structure PublicationRow where
  provisionalPath : List String
  finalLabel : List String
  state : PublicationState
  createdAt : ℚ
  publishedAt : Option ℚ := none

structure MaterializationRow where
  jobId : ℕ
  specPath : String
  specDigest : String
  createdAt : String

structure StaleClaimEvent where
  jobId : ℕ
  ownerId : String
  fencingToken : ℕ
  operation : JobStatus
  observedAt : ℚ

/-- `job_attempts` and `artifact_publications` are keyed by their `UNIQUE(job_id,
fencing_token)`, `queue_materializations` by its text key. -/
structure QueueDb where
  queue : Table ℕ JobRow
  attempts : Table (ℕ × ℕ) AttemptRow
  publications : Table (ℕ × ℕ) PublicationRow
  materializations : Table String MaterializationRow
  staleClaims : List StaleClaimEvent

def QueueDb.empty : QueueDb := ⟨.empty, .empty, .empty, .empty, []⟩

inductive JobError
  | stale (message : String)
  | value (message : String)
  | key (message : String)
  | integrity
  | other (message : String)
  deriving DecidableEq

/-- A connection made by `connect`: it never lets its authority clock go backwards. -/
structure Connection where
  authorityTimeFloor : ℚ
  compatOwner : String

/-- `_epoch`: the largest of the observed time, the supplied one and the floor. -/
def epoch (conn : Connection) (now : Option ℚ) (observed : ℚ) : ℚ :=
  flooredTime conn.authorityTimeFloor now observed

def Connection.advance (conn : Connection) (current : ℚ) : Connection :=
  { conn with authorityTimeFloor := current }

/-! ## Claiming -/

def claimOrder (a b : JobRow) : Bool :=
  decide (a.priority < b.priority ∨ (a.priority = b.priority ∧ a.createdAt < b.createdAt))

/-- `ORDER BY priority, created_at, job_id LIMIT 1`; rows are scanned in `job_id` order. -/
def nextQueued (db : QueueDb) : Option JobRow :=
  firstMin claimOrder (db.queue.toList.filter fun r => r.status = .queued)

structure ClaimArgs where
  ownerId : Option String
  leaseSeconds : ℚ
  now : Option ℚ

def claimOwnerOf (args : ClaimArgs) (conn : Connection) : String :=
  match args.ownerId with
  | some owner => if owner = "" then conn.compatOwner else owner
  | none => conn.compatOwner

def claimedRow (owner utc : String) (expires : ℚ) (row : JobRow) : JobRow :=
  { row with
    status := .running, startedAt := some utc, attempts := row.attempts + 1,
    claimOwner := some owner, claimExpiresAt := some expires,
    fencingToken := row.fencingToken + 1, mutationProtocol := "fenced.v2",
    mutationSeq := row.mutationSeq + 1 }

def claimNextJob (args : ClaimArgs) (clock : Readings) (utc : String) (conn : Connection)
    (db : QueueDb) : Except JobError (Option JobRow) × Connection × QueueDb :=
  if args.leaseSeconds ≤ 0 then (.error (.value "lease_seconds must be positive"), conn, db)
  else
    let owner := claimOwnerOf args conn
    let before := epoch conn args.now clock.first
    let current := epoch (conn.advance before) (some before) clock.second
    let conn := conn.advance current
    match nextQueued db with
    | none => (.ok none, conn, db)
    | some row =>
        match db.queue.compareAndSet row.jobId
          (fun r => r.status = .queued ∧ r.claimOwner = none ∧
            r.fencingToken = row.fencingToken ∧ r.mutationProtocol = "fenced.v2" ∧
            r.mutationSeq = row.mutationSeq)
          (claimedRow owner utc (current + args.leaseSeconds)) with
        | none => (.error (.stale "job changed during claim"), conn, db)
        | some queue =>
            match db.attempts.insertNew (row.jobId, row.fencingToken + 1)
              { ownerId := owner, state := .claimed, claimedAt := current } with
            | none => (.error .integrity, conn, db)
            | some attempts =>
                let db' := { db with queue, attempts }
                (.ok (db'.queue.row row.jobId), conn, db')

/-! ## Calls of a claim holder -/

/-- The job, owner and fence that a claim holder presents. -/
structure Claim where
  jobId : ℕ
  ownerId : String
  fencingToken : ℕ
  deriving DecidableEq

/-- The claim is the current one of its job and has not expired. -/
def heldBy (claim : Claim) (now : ℚ) (row : JobRow) : Bool :=
  decide (row.status = .running ∧ row.claimOwner.getD "" = claim.ownerId ∧
    row.fencingToken = claim.fencingToken ∧ now < row.claimExpiresAt.getD 0)

def assertJobClaim (claim : Claim) (now : ℚ) (db : QueueDb) : Except JobError JobRow :=
  match db.queue.row claim.jobId with
  | none => .error (.stale "stale claim for job")
  | some row =>
      if heldBy claim now row then .ok row else .error (.stale "stale claim for job")

/-- The part every guarded update has in its `WHERE`. -/
def guardHeld (claim : Claim) (now : ℚ) (row : JobRow) : Bool :=
  decide (row.status = .running ∧ row.claimOwner = some claim.ownerId ∧
    row.fencingToken = claim.fencingToken ∧ (∃ e ∈ row.claimExpiresAt, now < e) ∧
    row.mutationProtocol = "fenced.v2")

def markJobExecutingCheck (claim : Claim) (now : Option ℚ) (observed : ℚ)
    (conn : Connection) (db : QueueDb) : Except JobError Unit × Connection :=
  let current := epoch conn now observed
  ((assertJobClaim claim current db).map fun _ => (), conn.advance current)

def markJobExecutingWrite (claim : Claim) (observed : ℚ) (conn : Connection)
    (db : QueueDb) : Except JobError Unit × Connection × QueueDb :=
  let current := epoch conn (some conn.authorityTimeFloor) observed
  let conn := conn.advance current
  let held := ((db.queue.row claim.jobId).map (guardHeld claim current)).getD false
  match db.attempts.compareAndSet (claim.jobId, claim.fencingToken)
    (fun a => a.ownerId = claim.ownerId ∧ a.state = .claimed ∧ held)
    (fun a => { a with state := .executing, executingAt := some current }) with
  | none => (.error (.stale "attempt changed for job"), conn, db)
  | some attempts => (.ok (), conn, { db with attempts })

def renewJobLeaseCheck (claim : Claim) (leaseSeconds : ℚ) (now : Option ℚ) (observed : ℚ)
    (conn : Connection) (db : QueueDb) : Except JobError JobRow × Connection :=
  if leaseSeconds ≤ 0 then (.error (.value "lease_seconds must be positive"), conn)
  else
    let current := epoch conn now observed
    (assertJobClaim claim current db, conn.advance current)

/-- The second check, at a later reading of the clock. -/
def renewJobLeaseRecheck (claim : Claim) (observed : ℚ) (conn : Connection) (db : QueueDb) :
    Except JobError JobRow × Connection :=
  let current := epoch conn (some conn.authorityTimeFloor) observed
  (assertJobClaim claim current db, conn.advance current)

/-- The update compares with the row of the first check, at the time of the second. -/
def renewJobLeaseWrite (claim : Claim) (leaseSeconds : ℚ) (row : JobRow)
    (conn : Connection) (db : QueueDb) : Except JobError ℚ × QueueDb :=
  let current := conn.authorityTimeFloor
  let expires := current + leaseSeconds
  match db.queue.compareAndSet claim.jobId
    (fun r => guardHeld claim current r ∧ r.mutationSeq = row.mutationSeq)
    (fun r => { r with
      claimExpiresAt := some expires, mutationProtocol := "fenced.v2",
      mutationSeq := r.mutationSeq + 1 }) with
  | none => (.error (.stale "job changed during renewal"), db)
  | some queue => (.ok expires, { db with queue })

/-- How a job ends: its status, the run label, and the text of the error. -/
structure Finish where
  status : JobStatus
  runDirLabel : Option String
  error : String
  deriving DecidableEq

def completeJob (runDirLabel : String) : Finish := ⟨.completed, some runDirLabel, ""⟩

def failJob (error : String) : Finish := ⟨.failed, none, error⟩

def attemptStateOf : JobStatus → AttemptState
  | .failed => .failed
  | _ => .completed

/-- The first half of `_finish_job`: a stale claim leaves a `stale_claim_events` row. -/
def finishJobCheck (claim : Claim) (finish : Finish) (now : Option ℚ) (observed : ℚ)
    (conn : Connection) (db : QueueDb) : Except JobError JobRow × Connection × QueueDb :=
  let current := epoch conn now observed
  let conn := conn.advance current
  match db.queue.row claim.jobId with
  | none => (.error (.key "unknown job"), conn, db)
  | some _ =>
      match assertJobClaim claim current db with
      | .ok row => (.ok row, conn, db)
      | .error e =>
          let event : StaleClaimEvent :=
            ⟨claim.jobId, claim.ownerId, claim.fencingToken, finish.status, current⟩
          (.error e, conn, { db with staleClaims := db.staleClaims ++ [event] })

def finishedRow (finish : Finish) (utc : String) (row : JobRow) : JobRow :=
  { row with
    status := finish.status, finishedAt := some utc, runDirLabel := finish.runDirLabel,
    lastError := if finish.status = .completed then none
      else some (String.ofList (finish.error.toList.take 1000)),
    claimOwner := none, claimExpiresAt := none, mutationProtocol := "fenced.v2",
    mutationSeq := row.mutationSeq + 1 }

def openAttempt (state : AttemptState) : Bool :=
  decide (state = .claimed ∨ state = .executing)

def closeAttempt (state : AttemptState) (now : ℚ) (detail : String) (a : AttemptRow) :
    AttemptRow :=
  if openAttempt a.state then { a with state, finishedAt := some now, detail } else a

def finishJobWrite (claim : Claim) (finish : Finish) (row : JobRow) (observed : ℚ)
    (utc : String) (conn : Connection) (db : QueueDb) :
    Except JobError Unit × Connection × QueueDb :=
  let current := epoch conn (some conn.authorityTimeFloor) observed
  let conn := conn.advance current
  match db.queue.compareAndSet claim.jobId
    (fun r => guardHeld claim current r ∧ r.mutationSeq = row.mutationSeq)
    (finishedRow finish utc) with
  | none => (.error (.stale "job changed during finish"), conn, db)
  | some queue =>
      let attempts := db.attempts.modify (claim.jobId, row.fencingToken)
        (closeAttempt (attemptStateOf finish.status) current
          (String.ofList (finish.error.toList.take 1000)))
      (.ok (), conn, { db with queue, attempts })

/-! ## Publication -/

/-- The content of `publication_generation.json`: unreadable, not an object of the expected
types (which raises before any row is read), or the recorded identity. -/
inductive GenerationFile
  | unreadable
  | malformed
  | identity (schema : String) (claim : Claim)
  deriving DecidableEq

structure PublishArgs where
  privateRoot : List String
  provisionalDir : List String
  generation : GenerationFile
  now : Option ℚ
  deriving DecidableEq

def relativeTo (root path : List String) : Bool := root.isPrefixOf path

def provisionalRoot (root : List String) : List String := root ++ ["experiments", "provisional"]

def finalLabelOf (provisionalDir : List String) : List String :=
  ["experiments", "completed", provisionalDir.getLastD ""]

/-- The checks of `publish_completed_job` before its transaction. -/
def publishCheck (claim : Claim) (args : PublishArgs) (observed : ℚ) (conn : Connection) :
    Except JobError Unit × Connection :=
  let conn := conn.advance (epoch conn args.now observed)
  if !relativeTo (provisionalRoot args.privateRoot) args.provisionalDir then
    (.error (.value "not in the subpath"), conn)
  else
    match args.generation with
    | .unreadable => (.error (.stale "provisional generation identity is missing"), conn)
    | .malformed => (.error (.other "generation file is not an object"), conn)
    | .identity schema generation =>
        if schema ≠ "strategy_lab_publication_generation.v1" ∨ generation ≠ claim then
          (.error (.stale "provisional generation identity does not match claim"), conn)
        else (.ok (), conn)

def publishedRow (label utc : String) (row : JobRow) : JobRow :=
  { row with
    status := .completed, finishedAt := some utc, runDirLabel := some label,
    lastError := none, claimOwner := none, claimExpiresAt := none,
    mutationProtocol := "fenced.v2", mutationSeq := row.mutationSeq + 1 }

/-- The transaction of `publish_completed_job`. `imported` is the outcome of
`import_run_dir`, which writes only tables that no call of this model reads. -/
def publishWrite (claim : Claim) (args : PublishArgs) (imported : Except String ℕ)
    (clock : Readings) (utc : String) (conn : Connection) (db : QueueDb) :
    Except JobError ℕ × Connection × QueueDb :=
  let current := epoch conn (some conn.authorityTimeFloor) clock.first
  let conn := conn.advance current
  match assertJobClaim claim current db with
  | .error e => (.error e, conn, db)
  | .ok _ =>
      match imported with
      | .error e => (.error (.other e), conn, db)
      | .ok count =>
          -- The claim may have run out during the import: check it at the boundary again.
          let boundary := epoch conn args.now clock.second
          let conn := conn.advance boundary
          match assertJobClaim claim boundary db with
          | .error e => (.error e, conn, db)
          | .ok row =>
              let label := "/".intercalate (finalLabelOf args.provisionalDir)
              match db.queue.compareAndSet claim.jobId
                (fun r => guardHeld claim boundary r ∧ r.mutationSeq = row.mutationSeq)
                (publishedRow label utc) with
              | none => (.error (.stale "job changed during publication"), conn, db)
              | some queue =>
                  let attempts := db.attempts.modify (claim.jobId, claim.fencingToken)
                    fun a => if a.ownerId = claim.ownerId ∧ openAttempt a.state then
                      { a with state := .completed, finishedAt := some boundary } else a
                  let publication : PublicationRow :=
                    ⟨args.provisionalDir, finalLabelOf args.provisionalDir, .pendingRename,
                      boundary, none⟩
                  let publications := db.publications.upsert
                    (claim.jobId, claim.fencingToken) publication
                    fun p => { p with
                      provisionalPath := publication.provisionalPath,
                      finalLabel := publication.finalLabel }
                  (.ok count, conn, { db with queue, attempts, publications })

/-- The directories under the private root. -/
abbrev Directories := List String → Bool

def renameDirectory (source target : List String) (dirs : Directories) : Directories :=
  fun p => if p = target then true else if p = source then false else dirs p

def completedRoot (root : List String) : List String := root ++ ["experiments", "completed"]

/-- One turn of the loop of `recover_pending_publications`. -/
def recoverOne (root : List String) (key : ℕ × ℕ) (row : PublicationRow) (now : ℚ)
    (dirs : Directories) (db : QueueDb) : Except JobError ℕ × Directories × QueueDb :=
  let finalDir := root ++ row.finalLabel
  if !relativeTo (provisionalRoot root) row.provisionalPath then
    (.error (.value "not in the subpath"), dirs, db)
  else if !relativeTo (completedRoot root) finalDir then
    (.error (.value "not in the subpath"), dirs, db)
  else if finalDir.getLastD "" ≠ row.provisionalPath.getLastD "" then
    (.error (.other "publication paths identify different generations"), dirs, db)
  else if dirs row.provisionalPath ∧ dirs finalDir then
    (.error (.other "publication has both provisional and final directories"), dirs, db)
  else
    let dirs := if dirs row.provisionalPath then
      renameDirectory row.provisionalPath finalDir dirs else dirs
    if !dirs finalDir then (.ok 0, dirs, db)
    else
      match db.publications.compareAndSet key (fun p => p.state = .pendingRename)
        (fun p => { p with state := .directoryPublished, publishedAt := some now }) with
      | none => (.ok 0, dirs, db)
      | some publications => (.ok 1, dirs, { db with publications })

/-- `recover_pending_publications` over the pending rows of one generation. -/
def recoverPendingPublications (root : List String) (now : ℚ) :
    List ((ℕ × ℕ) × PublicationRow) → Directories → QueueDb →
      Except JobError ℕ × Directories × QueueDb
  | [], dirs, db => (.ok 0, dirs, db)
  | (key, row) :: rest, dirs, db =>
      match recoverOne root key row now dirs db with
      | (.error e, dirs, db) => (.error e, dirs, db)
      | (.ok n, dirs, db) =>
          match recoverPendingPublications root now rest dirs db with
          | (.ok m, dirs, db) => (.ok (n + m), dirs, db)
          | reply => reply

/-- The pending rows, all of them or those of one `(job_id, fencing_token)`. -/
def pendingPublications (key : Option (ℕ × ℕ)) (db : QueueDb) :
    List ((ℕ × ℕ) × PublicationRow) :=
  (db.publications.keys.filter fun k => key.all (· = k)).filterMap fun k =>
    (db.publications.row k).bind fun p =>
      if p.state = .pendingRename then some (k, p) else none

/-! ## Reaping -/

def requeuedRow (row : JobRow) : JobRow :=
  { row with
    status := .queued, startedAt := none, claimOwner := none, claimExpiresAt := none,
    lastError := some "requeued stale running job: expired fenced lease",
    mutationProtocol := "fenced.v2", mutationSeq := row.mutationSeq + 1 }

def expiredClaim (now : ℚ) (row : JobRow) : Bool :=
  decide (row.status = .running ∧ row.mutationProtocol = "fenced.v2" ∧
    row.claimOwner ≠ none ∧ ∃ e ∈ row.claimExpiresAt, e ≤ now)

def reapAttempt (now : ℚ) (a : AttemptRow) : AttemptRow :=
  { a with
    state := if a.state = .executing then .ambiguous else .superseded,
    finishedAt := some now, detail := "lease expired before terminal publication" }

/-- One turn of the loop of `reap_stale_jobs` over the selected rows. -/
def reapOne (now : ℚ) (acc : ℕ × QueueDb) (row : JobRow) : ℕ × QueueDb :=
  match acc.2.queue.compareAndSet row.jobId
    (fun r => expiredClaim now r ∧ r.claimOwner = row.claimOwner ∧
      r.fencingToken = row.fencingToken ∧ r.mutationSeq = row.mutationSeq)
    requeuedRow with
  | none => acc
  | some queue =>
      (acc.1 + 1, { acc.2 with
        queue
        attempts := acc.2.attempts.modify (row.jobId, row.fencingToken) (reapAttempt now) })

def reapStaleJobs (now : Option ℚ) (clock : Readings) (conn : Connection) (db : QueueDb) :
    ℕ × Connection × QueueDb :=
  let before := epoch conn now clock.first
  let current := epoch (conn.advance before) (some before) clock.second
  let rows := db.queue.toList.filter (expiredClaim current)
  let result := rows.foldl (reapOne current) (0, db)
  (result.1, conn.advance current, result.2)

/-! ## Filling the queue -/

def activeStatus (status : JobStatus) : Bool :=
  decide (status = .queued ∨ status = .running)

/-- `INSERT INTO queue` with the partial unique index over active spec paths. -/
def insertJob (db : QueueDb) (row : JobRow) : Option QueueDb :=
  if activeStatus row.status ∧
      db.queue.toList.any (fun r => r.specPath = row.specPath ∧ activeStatus r.status) then
    none
  else some { db with queue := db.queue.insert row.jobId row }

/-- `INSERT INTO queue_materializations`. -/
def insertMaterialization (db : QueueDb) (id : String) (row : MaterializationRow) :
    Option QueueDb :=
  (db.materializations.insertNew id row).map fun materializations =>
    { db with materializations }

structure EnqueueArgs where
  specPath : String
  priority : ℤ
  materializationId : Option String
  materializationDigest : Option String
  deriving DecidableEq

def queuedRow (args : EnqueueArgs) (jobId : ℕ) (digest : Option String) (utc : String) :
    JobRow where
  jobId := jobId
  specPath := args.specPath
  status := .queued
  priority := args.priority
  createdAt := utc
  mutationProtocol := "fenced.v2"
  materializationId := args.materializationId
  materializationDigest := digest

/-- `enqueue_experiment` with its default status. -/
def enqueueExperiment (args : EnqueueArgs) (utc : String) (db : QueueDb) :
    Except JobError ℕ × QueueDb :=
  let jobId := db.queue.nextKey
  match insertJob db (queuedRow args jobId args.materializationDigest utc) with
  | none => (.error .integrity, db)
  | some db₁ =>
      match args.materializationId with
      | none => (.ok jobId, db₁)
      | some id =>
          match insertMaterialization db₁ id
            ⟨jobId, args.specPath, args.materializationDigest.getD "", utc⟩ with
          | none => (.error .integrity, db)
          | some db₂ => (.ok jobId, db₂)

/-- `assert_current_content`: the digest of the spec file as it is now. -/
def assertCurrentContent (args : EnqueueArgs) (fileDigest : String → Option String) :
    Except JobError Unit :=
  match args.materializationId with
  | none => .ok ()
  | some _ =>
      match fileDigest args.specPath with
      | none => .error (.value "materialization spec content is unreadable")
      | some actual =>
          if actual ≠ args.materializationDigest.getD "" then
            .error (.value "materialization digest does not match spec content")
          else .ok ()

/-- The binding of a materialization id, joined with its queue row. -/
def bindingOf (db : QueueDb) (id : String) : Option (MaterializationRow × JobRow) :=
  match db.materializations.row id with
  | none => none
  | some m => (db.queue.row m.jobId).map fun q => (m, q)

/-- The binding is to the very content of the call. -/
def bindingMatches (args : EnqueueArgs) (binding : MaterializationRow × JobRow) : Bool :=
  decide (binding.1.specPath = args.specPath ∧
    binding.1.specDigest = args.materializationDigest.getD "" ∧
    binding.2.materializationDigest.getD "" = args.materializationDigest.getD "")

def rebound : JobError := .value "materialization id is bound to different spec content"

/-- The existing job that a call may share, for a call with and without an id. -/
def reusableJob (args : EnqueueArgs) (db : QueueDb) : Except JobError (Option JobRow) :=
  let digest := args.materializationDigest.getD ""
  match args.materializationId with
  | some _ =>
      match db.queue.toList.find? fun r =>
        r.specPath = args.specPath ∧ activeStatus r.status with
      | some active =>
          if active.materializationDigest.getD "" ≠ digest then
            .error (.value "active spec path is bound to different materialization content")
          else .ok (some active)
      | none =>
          .ok (db.queue.toList.find? fun r => r.specPath = args.specPath ∧
            r.status = .completed ∧ r.materializationDigest = some digest)
  | none =>
      .ok (db.queue.toList.find? fun r => r.specPath = args.specPath ∧
        (activeStatus r.status ∨ r.status = .completed))

/-- The transaction of `ensure_experiment_queued`; `.error .integrity` is the
`sqlite3.IntegrityError` that its recovery path catches. -/
def ensureTransaction (args : EnqueueArgs) (fileDigest : String → Option String)
    (utc : String) (db : QueueDb) : Except JobError (ℕ × Bool) × QueueDb :=
  match args.materializationId.bind (bindingOf db) with
  | some binding =>
      if !bindingMatches args binding then (.error rebound, db)
      else
        match assertCurrentContent args fileDigest with
        | .error e => (.error e, db)
        | .ok () => (.ok (binding.1.jobId, false), db)
  | none =>
      match assertCurrentContent args fileDigest with
      | .error e => (.error e, db)
      | .ok () =>
          match reusableJob args db with
          | .error e => (.error e, db)
          | .ok (some row) =>
              match args.materializationId with
              | none => (.ok (row.jobId, false), db)
              | some id =>
                  match insertMaterialization db id
                    ⟨row.jobId, args.specPath, args.materializationDigest.getD "", utc⟩ with
                  | none => (.error .integrity, db)
                  | some db' => (.ok (row.jobId, false), db')
          | .ok none =>
              let jobId := db.queue.nextKey
              -- `incoming_digest if materialization_id else None`: an empty id counts as none.
              let digest := args.materializationId.bind fun id =>
                if id = "" then none else some (args.materializationDigest.getD "")
              match insertJob db (queuedRow args jobId digest utc) with
              | none => (.error .integrity, db)
              | some db₁ =>
                  match args.materializationId with
                  | none => (.ok (jobId, true), db₁)
                  | some id =>
                      match insertMaterialization db₁ id
                        ⟨jobId, args.specPath, args.materializationDigest.getD "", utc⟩ with
                      | none => (.error .integrity, db)
                      | some db₂ => (.ok (jobId, true), db₂)

/-- The `except sqlite3.IntegrityError` branch, after its rollback. -/
def ensureRecovery (args : EnqueueArgs) (fileDigest : String → Option String)
    (utc : String) (db : QueueDb) : Except JobError (ℕ × Bool) × QueueDb :=
  match args.materializationId.bind (bindingOf db) with
  | some binding =>
      if !bindingMatches args binding then (.error rebound, db)
      else
        match assertCurrentContent args fileDigest with
        | .error e => (.error e, db)
        | .ok () => (.ok (binding.1.jobId, false), db)
  | none =>
      match assertCurrentContent args fileDigest with
      | .error e => (.error e, db)
      | .ok () =>
          match reusableJob args db with
          | .error e => (.error e, db)
          | .ok none => (.error .integrity, db)
          | .ok (some row) =>
              match args.materializationId with
              | none => (.ok (row.jobId, false), db)
              | some id =>
                  let row' : MaterializationRow :=
                    ⟨row.jobId, args.specPath, args.materializationDigest.getD "", utc⟩
                  -- `INSERT OR IGNORE`: an id bound in between keeps its binding.
                  let db' := { db with
                    materializations := db.materializations.insert id row' }
                  match bindingOf db' id with
                  | none => (.error rebound, db')
                  | some binding =>
                      if bindingMatches args binding then
                        (.ok (binding.1.jobId, false), db')
                      else (.error rebound, db')

def ensureExperimentQueued (args : EnqueueArgs) (fileDigest : String → Option String)
    (utc : String) (db : QueueDb) : Except JobError (ℕ × Bool) × QueueDb :=
  match ensureTransaction args fileDigest utc db with
  | (.error .integrity, _) => ensureRecovery args fileDigest utc db
  | reply => reply

end ResearchLab.ComputeQueue
