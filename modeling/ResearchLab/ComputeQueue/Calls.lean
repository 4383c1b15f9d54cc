import Mathlib
import ResearchLab.ComputeQueue.Steps

/-!
# Every call is a chain of job steps

One lemma for each call: whatever it answers, the view of every job moves by `JobMove`s,
after an insertion where the call fills the queue.
-/
namespace ResearchLab.ComputeQueue
open Foundation

def QueueSteps (db db' : QueueDb) : Prop := ∀ job, JobSteps (db.view job) (db'.view job)

/-- The calls that insert no job move every job and keep the bindings. -/
structure QueueMoves (db db' : QueueDb) : Prop where
  jobs : ∀ job, JobMoves (db.view job) (db'.view job)
  bindings : db'.materializations = db.materializations

theorem QueueSteps.refl (db : QueueDb) : QueueSteps db db := fun _ => .refl

theorem QueueSteps.trans {db₁ db₂ db₃ : QueueDb} (h₁ : QueueSteps db₁ db₂)
    (h₂ : QueueSteps db₂ db₃) : QueueSteps db₁ db₃ := fun job => (h₁ job).trans (h₂ job)

theorem QueueMoves.steps {db db' : QueueDb} (h : QueueMoves db db') : QueueSteps db db' :=
  fun job => (h.jobs job).steps

theorem QueueMoves.refl (db : QueueDb) : QueueMoves db db := ⟨fun _ => .refl, rfl⟩

theorem QueueMoves.trans {db₁ db₂ db₃ : QueueDb} (h₁ : QueueMoves db₁ db₂)
    (h₂ : QueueMoves db₂ db₃) : QueueMoves db₁ db₃ :=
  ⟨fun job => (h₁.jobs job).trans (h₂.jobs job), h₂.bindings.trans h₁.bindings⟩

/-- Views look at the queue and the attempts only. -/
theorem view_of_same {db db' : QueueDb} (hq : db'.queue = db.queue)
    (ha : db'.attempts = db.attempts) (job : ℕ) : db'.view job = db.view job := by
  simp [QueueDb.view, attemptCount, hq, ha]

theorem QueueMoves.of_same {db db' : QueueDb} (hq : db'.queue = db.queue)
    (ha : db'.attempts = db.attempts) (hm : db'.materializations = db.materializations) :
    QueueMoves db db' :=
  ⟨fun job => by rw [view_of_same hq ha], hm⟩

/-! ## Views of updated tables -/

theorem attempt_modify (t : Table (ℕ × ℕ) AttemptRow) (j n : ℕ)
    (g : AttemptRow → AttemptRow) :
    (fun i => (t.modify (j, n) g).row (j, i)) = updateAttempt g n fun i => t.row (j, i) := by
  funext i
  by_cases hi : i = n
  · subst hi
    simp [updateAttempt]
  · have : ((j, i) : ℕ × ℕ) ≠ (j, n) := by simpa using hi
    simp [updateAttempt, hi, Table.modify_row_of_ne _ this]

theorem attempt_modify_of_ne (t : Table (ℕ × ℕ) AttemptRow) {j k : ℕ} (h : k ≠ j) (n : ℕ)
    (g : AttemptRow → AttemptRow) :
    (fun i => (t.modify (j, n) g).row (k, i)) = fun i => t.row (k, i) := by
  funext i
  exact Table.modify_row_of_ne _ (by simp [h]) _

variable {db db' : QueueDb} {j n : ℕ}

/-- A change of one job only. -/
theorem QueueMoves.single (hm : db'.materializations = db.materializations)
    (move : JobMove (db.view j) (db'.view j))
    (others : ∀ k, k ≠ j → db'.view k = db.view k) : QueueMoves db db' := by
  refine ⟨fun k => ?_, hm⟩
  by_cases hk : k = j
  · subst hk
    exact .single move
  · rw [others k hk]

/-- An update of the queue row of one job and of one of its attempts. -/
theorem QueueMoves.modify {f : JobRow → JobRow} {g : AttemptRow → AttemptRow}
    (hq : db'.queue = db.queue.modify j f) (ha : db'.attempts = db.attempts.modify (j, n) g)
    (hm : db'.materializations = db.materializations)
    (move : JobMove (db.view j) ⟨(db.queue.row j).map f,
      updateAttempt g n (db.view j).attempt, (db.view j).count⟩) : QueueMoves db db' := by
  refine .single (j := j) hm ?_ fun k hk => ?_
  · convert move using 1
    simp [QueueDb.view, attemptCount, hq, ha, attempt_modify]
  · simp [QueueDb.view, attemptCount, hq, ha, attempt_modify_of_ne _ hk,
      Table.modify_row_of_ne _ hk]

theorem QueueMoves.modifyAttempt {g : AttemptRow → AttemptRow} (hq : db'.queue = db.queue)
    (ha : db'.attempts = db.attempts.modify (j, n) g)
    (hm : db'.materializations = db.materializations)
    (move : JobMove (db.view j) ⟨db.queue.row j, updateAttempt g n (db.view j).attempt,
      (db.view j).count⟩) : QueueMoves db db' := by
  refine .single (j := j) hm ?_ fun k hk => ?_
  · convert move using 1
    simp [QueueDb.view, attemptCount, hq, ha, attempt_modify]
  · simp [QueueDb.view, attemptCount, hq, ha, attempt_modify_of_ne _ hk]

theorem QueueMoves.modifyQueue {f : JobRow → JobRow} (hq : db'.queue = db.queue.modify j f)
    (ha : db'.attempts = db.attempts) (hm : db'.materializations = db.materializations)
    (move : JobMove (db.view j) ⟨(db.queue.row j).map f, (db.view j).attempt,
      (db.view j).count⟩) : QueueMoves db db' := by
  refine .single (j := j) hm ?_ fun k hk => ?_
  · convert move using 1
    simp [QueueDb.view, attemptCount, hq, ha]
  · simp [QueueDb.view, attemptCount, hq, ha, Table.modify_row_of_ne _ hk]

/-- An update of a queue row with a new attempt. -/
theorem QueueMoves.claim {f : JobRow → JobRow} {a : AttemptRow}
    (hq : db'.queue = db.queue.modify j f) (ha : db'.attempts = db.attempts.insert (j, n) a)
    (hm : db'.materializations = db.materializations)
    (hn : db.attempts.row (j, n) = none)
    (move : JobMove (db.view j) ⟨(db.queue.row j).map f,
      Function.update (db.view j).attempt n (some a), (db.view j).count + 1⟩) :
    QueueMoves db db' := by
  refine .single (j := j) hm ?_ fun k hk => ?_
  · convert move using 1
    simp only [QueueDb.view, attemptCount, hq, ha, Table.modify_row_self,
      Table.insert_keys hn, List.filter_append, JobView.mk.injEq, true_and]
    refine ⟨?_, by simp⟩
    funext i
    by_cases hi : i = n
    · subst hi
      simp [Table.insert_row_self hn]
    · have : ((j, i) : ℕ × ℕ) ≠ (j, n) := by simpa using hi
      simp [Function.update_of_ne hi, Table.insert_row_of_ne this]
  · have hne : ∀ i, ((k, i) : ℕ × ℕ) ≠ (j, n) := by simp [hk]
    simp [QueueDb.view, attemptCount, hq, ha, Table.modify_row_of_ne _ hk,
      Table.insert_row_of_ne (hne _), Table.insert_keys hn, List.filter_append, Ne.symm hk]

/-- An `INSERT` into the queue. -/
theorem QueueSteps.insert {row : JobRow} (hq : db'.queue = db.queue.insert j row)
    (ha : db'.attempts = db.attempts) (hn : db.queue.row j = none) (new : Inserted row) :
    QueueSteps db db' := by
  intro k
  by_cases hk : k = j
  · subst hk
    have : db'.view k = ⟨some row, (db.view k).attempt, (db.view k).count⟩ := by
      simp [QueueDb.view, attemptCount, hq, ha, Table.insert_row_self hn]
    rw [this]
    exact .single (.inserted hn new)
  · have : db'.view k = db.view k := by
      simp [QueueDb.view, attemptCount, hq, ha, Table.insert_row_of_ne hk]
    rw [this]

/-! ## The calls -/

theorem claimNextJob_moves (args : ClaimArgs) (clock : Readings) (utc : String)
    (conn : Connection) (db : QueueDb) :
    QueueMoves db (claimNextJob args clock utc conn db).2.2 := by
  simp only [claimNextJob]
  split
  · exact .refl _
  split
  · exact .refl _
  next row hnext =>
  split
  · exact .refl _
  next queue hcas =>
  split
  · exact .refl _
  next attempts hins =>
  obtain ⟨r, hr, hp, rfl⟩ := Table.compareAndSet_eq_some.1 hcas
  obtain ⟨hfresh, rfl⟩ := Table.insertNew_eq_some.1 hins
  simp only [decide_eq_true_eq] at hp
  obtain ⟨hqueued, -, hfence, -⟩ := hp
  refine .claim rfl rfl rfl hfresh ?_
  rw [hr, ← hfence]
  exact .claimed hr hqueued (by simpa [QueueDb.view, hfence] using hfresh) rfl rfl

theorem guardHeld_iff {claim : Claim} {now : ℚ} {row : JobRow} :
    guardHeld claim now row = true ↔ row.status = .running ∧
      row.claimOwner = some claim.ownerId ∧ row.fencingToken = claim.fencingToken ∧
      (∃ e ∈ row.claimExpiresAt, now < e) ∧ row.mutationProtocol = "fenced.v2" := by
  simp [guardHeld]

theorem heldBy_iff {claim : Claim} {now : ℚ} {row : JobRow} :
    heldBy claim now row = true ↔ row.status = .running ∧
      row.claimOwner.getD "" = claim.ownerId ∧ row.fencingToken = claim.fencingToken ∧
      now < row.claimExpiresAt.getD 0 := by
  simp [heldBy]

/-- The claim is the current unexpired claim of its job. -/
def Current (claim : Claim) (now : ℚ) (db : QueueDb) : Prop :=
  ∃ row, db.queue.row claim.jobId = some row ∧ heldBy claim now row = true

theorem heldBy_of_guardHeld {claim : Claim} {now : ℚ} {row : JobRow}
    (h : guardHeld claim now row = true) : heldBy claim now row = true := by
  obtain ⟨hs, ho, hf, ⟨e, he, hlt⟩, -⟩ := guardHeld_iff.1 h
  exact heldBy_iff.2 ⟨hs, by simp [ho], hf, by simpa [Option.mem_def.1 he] using hlt⟩

theorem assertJobClaim_eq_ok {claim : Claim} {now : ℚ} {db : QueueDb} {row : JobRow} :
    assertJobClaim claim now db = .ok row ↔
      db.queue.row claim.jobId = some row ∧ heldBy claim now row = true := by
  unfold assertJobClaim
  split
  · next h => simp [h]
  · next r h =>
    split
    · next hh =>
      simp only [h, Except.ok.injEq, Option.some.injEq]
      exact ⟨fun e => ⟨e, e ▸ hh⟩, fun e => e.1⟩
    · next hh =>
      simp only [h, Option.some.injEq, reduceCtorEq, false_iff, not_and]
      rintro rfl
      exact hh

theorem assertJobClaim_of_not_current {claim : Claim} {now : ℚ} {db : QueueDb}
    (h : ¬ Current claim now db) :
    assertJobClaim claim now db = .error (.stale "stale claim for job") := by
  unfold assertJobClaim
  split
  · rfl
  · next r hr =>
    split
    · next hh => exact absurd ⟨r, hr, hh⟩ h
    · rfl

theorem markJobExecutingWrite_moves (claim : Claim) (observed : ℚ) (conn : Connection)
    (db : QueueDb) : QueueMoves db (markJobExecutingWrite claim observed conn db).2.2 := by
  simp only [markJobExecutingWrite]
  split
  · exact .refl _
  next attempts hcas =>
  obtain ⟨a, ha, hp, rfl⟩ := Table.compareAndSet_eq_some.1 hcas
  simp only [decide_eq_true_eq] at hp
  obtain ⟨-, -, hheld⟩ := hp
  cases hr : db.queue.row claim.jobId with
  | none => simp [hr] at hheld
  | some row =>
    simp only [hr, Option.map_some, Option.getD_some] at hheld
    obtain ⟨hrun, -, hfence, -⟩ := guardHeld_iff.1 hheld
    refine .modifyAttempt rfl rfl rfl ?_
    rw [hr, ← hfence]
    exact .executing hr hrun fun _ => ⟨rfl, rfl⟩

theorem renewJobLeaseWrite_moves (claim : Claim) (leaseSeconds : ℚ) (row : JobRow)
    (conn : Connection) (db : QueueDb) :
    QueueMoves db (renewJobLeaseWrite claim leaseSeconds row conn db).2 := by
  simp only [renewJobLeaseWrite]
  split
  · exact .refl _
  next queue hcas =>
  obtain ⟨r, hr, hp, rfl⟩ := Table.compareAndSet_eq_some.1 hcas
  simp only [decide_eq_true_eq] at hp
  obtain ⟨hrun, -⟩ := guardHeld_iff.1 hp.1
  refine .modifyQueue rfl rfl rfl ?_
  rw [hr]
  exact .renewed hr hrun (by simp) rfl

theorem unclaimed_finishedRow (finish : Finish) (utc : String) (row : JobRow) :
    Unclaimed row (finishedRow finish utc row) finish.status :=
  ⟨rfl, rfl, rfl, rfl, rfl, rfl, rfl, rfl, rfl⟩

theorem closeAttempt_terminal {state : AttemptState} (h : state.terminal = true) (now : ℚ)
    (detail : String) {a : AttemptRow} (ha : openAttempt a.state = true) :
    (closeAttempt state now detail a).state.terminal = true := by
  simp [closeAttempt, ha, h]

theorem attemptStateOf_terminal (status : JobStatus) :
    (attemptStateOf status).terminal = true := by
  cases status <;> rfl

theorem finishJobWrite_moves {claim : Claim} {row : JobRow}
    (hrow : row.fencingToken = claim.fencingToken) {finish : Finish}
    (hfinish : finish.status ≠ .running) (observed : ℚ) (utc : String) (conn : Connection)
    (db : QueueDb) :
    QueueMoves db (finishJobWrite claim finish row observed utc conn db).2.2 := by
  simp only [finishJobWrite]
  split
  · exact .refl _
  next queue hcas =>
  obtain ⟨r, hr, hp, rfl⟩ := Table.compareAndSet_eq_some.1 hcas
  simp only [decide_eq_true_eq] at hp
  obtain ⟨hrun, -, hfence, -⟩ := guardHeld_iff.1 hp.1
  refine .modify rfl rfl rfl ?_
  rw [hr, hrow, ← hfence]
  exact .closed hr hrun hfinish (unclaimed_finishedRow finish utc r) fun a _ ha =>
    closeAttempt_terminal (attemptStateOf_terminal _) _ _ ha

theorem unclaimed_publishedRow (label utc : String) (row : JobRow) :
    Unclaimed row (publishedRow label utc row) .completed :=
  ⟨rfl, rfl, rfl, rfl, rfl, rfl, rfl, rfl, rfl⟩

/-- The publication closes the attempt only under the owner's name: that the open attempt
of a running job carries it is part of the invariant. -/
theorem publishWrite_moves (claim : Claim) (args : PublishArgs) (imported : Except String ℕ)
    (clock : Readings) (utc : String) (conn : Connection) {db : QueueDb}
    (hinv : JobInv (db.view claim.jobId)) :
    QueueMoves db (publishWrite claim args imported clock utc conn db).2.2 := by
  simp only [publishWrite]
  split
  · exact .refl _
  split
  · exact .refl _
  split
  · exact .refl _
  next row hrow =>
  split
  · exact .refl _
  next queue hcas =>
  obtain ⟨r, hr, hp, rfl⟩ := Table.compareAndSet_eq_some.1 hcas
  simp only [decide_eq_true_eq] at hp
  obtain ⟨hrun, howner, hfence, -⟩ := guardHeld_iff.1 hp.1
  refine .modify rfl rfl rfl ?_
  rw [hr, ← hfence]
  refine .closed hr hrun (by simp) (unclaimed_publishedRow _ utc r) fun a ha hopen => ?_
  obtain ⟨a', ha', -, hown⟩ := (hinv.present r hr).current hrun
  obtain rfl : a' = a := by simpa [ha'] using ha
  have : a'.ownerId = claim.ownerId := by simpa [howner] using hown.symm
  simp only [this, hopen, and_self, if_true]
  rfl

theorem unclaimed_requeuedRow (row : JobRow) :
    Unclaimed row (requeuedRow row) .queued :=
  ⟨rfl, rfl, rfl, rfl, rfl, rfl, rfl, rfl, rfl⟩

theorem reapOne_moves (now : ℚ) (count : ℕ) (db : QueueDb) (row : JobRow) :
    QueueMoves db (reapOne now (count, db) row).2 := by
  simp only [reapOne]
  split
  · exact .refl _
  next queue hcas =>
  obtain ⟨r, hr, hp, rfl⟩ := Table.compareAndSet_eq_some.1 hcas
  simp only [decide_eq_true_eq, expiredClaim] at hp
  obtain ⟨⟨hrun, -⟩, -, hfence, -⟩ := hp
  refine .modify rfl rfl rfl ?_
  rw [hr, ← hfence]
  refine .closed hr hrun (by simp) (unclaimed_requeuedRow r) fun a _ _ => ?_
  simp only [reapAttempt]
  split_ifs <;> rfl

theorem reap_foldl_moves (now : ℚ) (rows : List JobRow) (acc : ℕ × QueueDb) :
    QueueMoves acc.2 (rows.foldl (reapOne now) acc).2 := by
  induction rows generalizing acc with
  | nil => exact .refl _
  | cons row rows ih => exact (reapOne_moves now acc.1 acc.2 row).trans (ih _)

theorem reapStaleJobs_moves (now : Option ℚ) (clock : Readings) (conn : Connection)
    (db : QueueDb) : QueueMoves db (reapStaleJobs now clock conn db).2.2 :=
  reap_foldl_moves _ _ (0, db)

theorem recoverOne_moves (root : List String) (key : ℕ × ℕ) (row : PublicationRow) (now : ℚ)
    (dirs : Directories) (db : QueueDb) :
    QueueMoves db (recoverOne root key row now dirs db).2.2 := by
  simp only [recoverOne]
  split_ifs
  all_goals try exact .refl _
  all_goals split
  all_goals exact .of_same rfl rfl rfl

theorem inserted_queuedRow (args : EnqueueArgs) (jobId : ℕ) (digest : Option String)
    (utc : String) : Inserted (queuedRow args jobId digest utc) :=
  ⟨rfl, rfl, rfl, rfl, rfl, rfl⟩

theorem insertJob_eq_some {db db' : QueueDb} {row : JobRow} (h : insertJob db row = some db') :
    db' = { db with queue := db.queue.insert row.jobId row } ∧
      (activeStatus row.status = true → ∀ k r, db.queue.row k = some r →
        r.specPath = row.specPath → activeStatus r.status = false) := by
  unfold insertJob at h
  split_ifs at h with hc
  refine ⟨(Option.some.inj h).symm, fun hrow k r hr hpath => ?_⟩
  by_contra hact
  refine hc ⟨hrow, List.any_eq_true.2 ⟨r, Table.mem_toList.2 ⟨k, hr⟩, ?_⟩⟩
  simpa [hpath] using hact

theorem insertMaterialization_eq_some {db db' : QueueDb} {id : String}
    {row : MaterializationRow} (h : insertMaterialization db id row = some db') :
    db.materializations.row id = none ∧
      db' = { db with materializations := db.materializations.insert id row } := by
  simp only [insertMaterialization, Option.map_eq_some_iff] at h
  obtain ⟨m, hm, rfl⟩ := h
  obtain ⟨hn, rfl⟩ := Table.insertNew_eq_some.1 hm
  exact ⟨hn, rfl⟩

theorem insertJob_steps {db db' : QueueDb} {args : EnqueueArgs} {digest : Option String}
    {utc : String} (h : insertJob db (queuedRow args db.queue.nextKey digest utc) = some db') :
    QueueSteps db db' := by
  obtain ⟨rfl, -⟩ := insertJob_eq_some h
  exact .insert rfl rfl (Table.row_nextKey _) (inserted_queuedRow ..)

theorem insertMaterialization_steps {db db' : QueueDb} {id : String}
    {row : MaterializationRow} (h : insertMaterialization db id row = some db') :
    QueueSteps db db' := by
  obtain ⟨-, rfl⟩ := insertMaterialization_eq_some h
  exact fun _ => .refl

theorem enqueueExperiment_steps (args : EnqueueArgs) (utc : String) (db : QueueDb) :
    QueueSteps db (enqueueExperiment args utc db).2 := by
  simp only [enqueueExperiment]
  split
  · exact .refl _
  next db₁ h₁ =>
  split
  · exact insertJob_steps h₁
  split
  · exact .refl _
  next db₂ h₂ => exact (insertJob_steps h₁).trans (insertMaterialization_steps h₂)

/-! ## Filling the queue by content -/

/-- What one transaction of `ensure_experiment_queued` can do. -/
inductive EnsureEffect (args : EnqueueArgs) (fileDigest : String → Option String)
    (utc : String) (db : QueueDb) : Except JobError (ℕ × Bool) → QueueDb → Prop
  | raised {e : JobError} (ne : e ≠ .integrity) : EnsureEffect args fileDigest utc db (.error e) db
  | lostJob {digest : Option String} (reusable : reusableJob args db = .ok none)
      (insert : insertJob db (queuedRow args db.queue.nextKey digest utc) = none) :
      EnsureEffect args fileDigest utc db (.error .integrity) db
  | lostBinding {id : String} (hid : args.materializationId = some id)
      (unbound : bindingOf db id = none) (taken : db.materializations.row id ≠ none) :
      EnsureEffect args fileDigest utc db (.error .integrity) db
  | repeated {id : String} {m : MaterializationRow} {q : JobRow}
      (hid : args.materializationId = some id) (binding : bindingOf db id = some (m, q))
      (same : bindingMatches args (m, q) = true) :
      EnsureEffect args fileDigest utc db (.ok (m.jobId, false)) db
  | shared {row : JobRow} (noId : args.materializationId = none)
      (reusable : reusableJob args db = .ok (some row)) :
      EnsureEffect args fileDigest utc db (.ok (row.jobId, false)) db
  | aliased {id : String} {row : JobRow} {db' : QueueDb}
      (hid : args.materializationId = some id)
      (reusable : reusableJob args db = .ok (some row))
      (bind : insertMaterialization db id
        ⟨row.jobId, args.specPath, args.materializationDigest.getD "", utc⟩ = some db') :
      EnsureEffect args fileDigest utc db (.ok (row.jobId, false)) db'
  | created {digest : Option String} {db₁ db' : QueueDb}
      (hdigest : digest = args.materializationId.bind fun id =>
        if id = "" then none else some (args.materializationDigest.getD ""))
      (content : assertCurrentContent args fileDigest = .ok ())
      (reusable : reusableJob args db = .ok none)
      (insert : insertJob db (queuedRow args db.queue.nextKey digest utc) = some db₁)
      (bind : match args.materializationId with
        | none => db' = db₁
        | some id => insertMaterialization db₁ id ⟨db.queue.nextKey, args.specPath,
            args.materializationDigest.getD "", utc⟩ = some db') :
      EnsureEffect args fileDigest utc db (.ok (db.queue.nextKey, true)) db'

theorem bindingOf_job {db : QueueDb} {id : String} {m : MaterializationRow} {q : JobRow}
    (h : bindingOf db id = some (m, q)) :
    db.materializations.row id = some m ∧ db.queue.row m.jobId = some q := by
  unfold bindingOf at h
  split at h
  · cases h
  · next m' hm =>
    simp only [Option.map_eq_some_iff, Prod.mk.injEq] at h
    obtain ⟨q', hq, rfl, rfl⟩ := h
    exact ⟨hm, hq⟩

theorem assertCurrentContent_ne_integrity {args : EnqueueArgs}
    {fileDigest : String → Option String} {e : JobError}
    (h : assertCurrentContent args fileDigest = .error e) : e ≠ .integrity := by
  unfold assertCurrentContent at h
  split at h
  · cases h
  split at h
  · cases h
    simp
  · split_ifs at h
    cases h
    simp

theorem reusableJob_ne_integrity {args : EnqueueArgs} {db : QueueDb} {e : JobError}
    (h : reusableJob args db = .error e) : e ≠ .integrity := by
  simp only [reusableJob] at h
  split at h
  · split at h
    · split_ifs at h
      cases h
      simp
    · cases h
  · cases h

theorem insertMaterialization_eq_none {db : QueueDb} {id : String} {row : MaterializationRow}
    (h : insertMaterialization db id row = none) : db.materializations.row id ≠ none := by
  intro hn
  simp [insertMaterialization, Table.insertNew, hn] at h

theorem ensureTransaction_effect (args : EnqueueArgs) (fileDigest : String → Option String)
    (utc : String) (db : QueueDb) :
    EnsureEffect args fileDigest utc db (ensureTransaction args fileDigest utc db).1
      (ensureTransaction args fileDigest utc db).2 := by
  simp only [ensureTransaction]
  split
  · next binding hb =>
    obtain ⟨id, hid, hbind⟩ := Option.bind_eq_some_iff.1 hb
    split
    · exact .raised (by simp [rebound])
    next hmatch =>
    split
    · next he => exact .raised (assertCurrentContent_ne_integrity he)
    · exact .repeated hid hbind (by simpa using hmatch)
  next hunbound =>
  have hfree : ∀ id, args.materializationId = some id → bindingOf db id = none := by
    intro id hid
    simpa [hid] using hunbound
  split
  · next he => exact .raised (assertCurrentContent_ne_integrity he)
  next hcontent =>
  split
  · next he => exact .raised (reusableJob_ne_integrity he)
  · next row hrow =>
    split
    · next hid => exact .shared hid hrow
    next id hid =>
    split
    · next hbind => exact .lostBinding hid (hfree id hid) (insertMaterialization_eq_none hbind)
    · next db' hbind => exact .aliased hid hrow hbind
  next hnone =>
  split
  · next hinsert => exact .lostJob hnone hinsert
  next db₁ hinsert =>
  split
  · next hid => exact .created rfl hcontent hnone hinsert (by simp [hid])
  next id hid =>
  split
  · next hbind =>
    have htaken := insertMaterialization_eq_none hbind
    obtain ⟨rfl, -⟩ := insertJob_eq_some hinsert
    exact .lostBinding hid (hfree id hid) htaken
  · next db₂ hbind => exact .created rfl hcontent hnone hinsert (by simpa [hid] using hbind)

theorem EnsureEffect.steps {args : EnqueueArgs} {fileDigest : String → Option String}
    {utc : String} {db db' : QueueDb} {reply : Except JobError (ℕ × Bool)}
    (h : EnsureEffect args fileDigest utc db reply db') : QueueSteps db db' := by
  cases h with
  | raised => exact .refl _
  | lostJob => exact .refl _
  | lostBinding => exact .refl _
  | repeated => exact .refl _
  | shared => exact .refl _
  | aliased _ _ bind => exact insertMaterialization_steps bind
  | created _ _ _ insert bind =>
    have h₁ := insertJob_steps insert
    split at bind
    · exact bind ▸ h₁
    · exact h₁.trans (insertMaterialization_steps bind)

theorem ensureRecovery_steps (args : EnqueueArgs) (fileDigest : String → Option String)
    (utc : String) (db : QueueDb) :
    QueueSteps db (ensureRecovery args fileDigest utc db).2 := by
  have hsame : ∀ m, QueueSteps db { db with materializations := m } := fun _ _ => .refl
  simp only [ensureRecovery]
  split
  · split
    · exact .refl _
    split <;> exact .refl _
  split
  · exact .refl _
  split
  · exact .refl _
  · exact .refl _
  split
  · exact .refl _
  split
  · exact hsame _
  split <;> exact hsame _

theorem ensureExperimentQueued_steps (args : EnqueueArgs)
    (fileDigest : String → Option String) (utc : String) (db : QueueDb) :
    QueueSteps db (ensureExperimentQueued args fileDigest utc db).2 := by
  unfold ensureExperimentQueued
  split
  · exact ensureRecovery_steps args fileDigest utc db
  · exact (ensureTransaction_effect ..).steps

end ResearchLab.ComputeQueue
