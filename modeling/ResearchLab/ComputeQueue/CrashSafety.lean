import Mathlib
import ResearchLab.ComputeQueue.Publication

/-!
# Publications survive crashes

The invariant of the publishing farm ties the publication rows to the completed jobs, to the
imported runs and to the directories. It survives every step, whichever calls are in flight.
-/
namespace ResearchLab.ComputeQueue
open Foundation

section
variable {root : List String} {out out' : Outputs}

theorem provisionalDir_inj (h : provisionalDir root out = provisionalDir root out') :
    out.name = out'.name := List.singleton_inj.1 (List.append_cancel_left h)

theorem finalDir_inj (h : finalDir root out = finalDir root out') : out.name = out'.name :=
  List.singleton_inj.1 (List.append_cancel_left h)

theorem provisionalDir_ne_finalDir : provisionalDir root out ≠ finalDir root out' := by
  intro h
  simp only [provisionalDir, finalDir, provisionalRoot, completedRoot, List.append_assoc] at h
  have := List.append_cancel_left h
  simp at this

theorem getLastD_provisionalDir : (provisionalDir root out).getLastD "" = out.name := by
  simp [provisionalDir, List.getLastD_eq_getLast?]

theorem finalLabelOf_provisionalDir :
    finalLabelOf (provisionalDir root out) = ["experiments", "completed", out.name] := by
  rw [finalLabelOf, getLastD_provisionalDir]

theorem root_append_finalLabel : root ++ finalLabelOf (provisionalDir root out) = finalDir root out := by
  simp [finalLabelOf_provisionalDir, finalDir, completedRoot]

theorem getLastD_finalDir : (finalDir root out).getLastD "" = out.name := by
  simp [finalDir, List.getLastD_eq_getLast?]

theorem relativeTo_append (path rest : List String) : relativeTo path (path ++ rest) = true := by
  simp [relativeTo]

end

/-! ## Calls that leave the publications alone -/

/-- No publication and no completed row changes. -/
structure Unpublished (db db' : QueueDb) : Prop where
  publications : db'.publications = db.publications
  completed : ∀ job row, row.status = .completed →
    (db'.queue.row job = some row ↔ db.queue.row job = some row)

namespace Unpublished
variable {db db' db'' : QueueDb}

theorem refl (db : QueueDb) : Unpublished db db := ⟨rfl, fun _ _ _ => Iff.rfl⟩

theorem trans (h : Unpublished db db') (h' : Unpublished db' db'') : Unpublished db db'' :=
  ⟨h'.publications.trans h.publications, fun job row hrow =>
    (h'.completed job row hrow).trans (h.completed job row hrow)⟩

theorem of_queue (hpublications : db'.publications = db.publications) (hqueue : db'.queue = db.queue) :
    Unpublished db db' := ⟨hpublications, fun _ _ _ => by rw [hqueue]⟩

theorem modify {j : ℕ} {f : JobRow → JobRow} {r : JobRow}
    (hpublications : db'.publications = db.publications) (hqueue : db'.queue = db.queue.modify j f)
    (hr : db.queue.row j = some r) (hbefore : r.status ≠ .completed)
    (hafter : (f r).status ≠ .completed) : Unpublished db db' := by
  refine ⟨hpublications, fun job row hrow => ?_⟩
  rw [hqueue]
  by_cases hjob : job = j
  · subst hjob
    rw [Table.modify_row_self, hr, Option.map_some, Option.some.injEq, Option.some.injEq]
    constructor
    · rintro rfl
      exact absurd hrow hafter
    · rintro rfl
      exact absurd hrow hbefore
  · rw [Table.modify_row_of_ne _ hjob]

theorem insert {j : ℕ} {r : JobRow} (hpublications : db'.publications = db.publications)
    (hqueue : db'.queue = db.queue.insert j r) (hj : db.queue.row j = none)
    (hr : r.status ≠ .completed) : Unpublished db db' := by
  refine ⟨hpublications, fun job row hrow => ?_⟩
  rw [hqueue, Table.insert_row hj]
  by_cases hjob : job = j
  · subst hjob
    rw [if_pos rfl, hj, Option.some.injEq]
    simp only [reduceCtorEq, iff_false]
    rintro rfl
    exact hr hrow
  · rw [if_neg hjob]

end Unpublished

theorem ne_completed_of_running {row : JobRow} (h : row.status = .running) :
    row.status ≠ .completed := by
  rw [h]
  simp

theorem claimNextJob_unpublished (args : ClaimArgs) (clock : Readings) (utc : String)
    (conn : Connection) (db : QueueDb) :
    Unpublished db (claimNextJob args clock utc conn db).2.2 := by
  simp only [claimNextJob]
  split
  · exact .refl _
  split
  · exact .refl _
  split
  · exact .refl _
  next queue hcas =>
  split
  · exact .refl _
  obtain ⟨r, hr, hp, rfl⟩ := Table.compareAndSet_eq_some.1 hcas
  simp only [decide_eq_true_eq] at hp
  exact .modify rfl rfl hr (by simp [hp.1]) (by simp [claimedRow])

theorem finishJobCheck_unpublished (claim : Claim) (how : Finish) (now : Option ℚ) (observed : ℚ)
    (conn : Connection) (db : QueueDb) :
    Unpublished db (finishJobCheck claim how now observed conn db).2.2 := by
  simp only [finishJobCheck]
  split
  · exact .refl _
  split
  · exact .refl _
  · exact .of_queue rfl rfl

theorem finishJobWrite_unpublished {claim : Claim} {how : Finish} (hhow : how.status = .failed)
    (row : JobRow) (observed : ℚ) (utc : String) (conn : Connection) (db : QueueDb) :
    Unpublished db (finishJobWrite claim how row observed utc conn db).2.2 := by
  simp only [finishJobWrite]
  split
  · exact .refl _
  next queue hcas =>
  obtain ⟨r, hr, hp, rfl⟩ := Table.compareAndSet_eq_some.1 hcas
  simp only [decide_eq_true_eq] at hp
  exact .modify rfl rfl hr (ne_completed_of_running (guardHeld_iff.1 hp.1).1)
    (by simp [finishedRow, hhow])

theorem markJobExecutingWrite_unpublished (claim : Claim) (observed : ℚ) (conn : Connection)
    (db : QueueDb) : Unpublished db (markJobExecutingWrite claim observed conn db).2.2 := by
  simp only [markJobExecutingWrite]
  split
  · exact .refl _
  · exact .of_queue rfl rfl

theorem renewJobLeaseWrite_unpublished (claim : Claim) (leaseSeconds : ℚ) (row : JobRow)
    (conn : Connection) (db : QueueDb) :
    Unpublished db (renewJobLeaseWrite claim leaseSeconds row conn db).2 := by
  simp only [renewJobLeaseWrite]
  split
  · exact .refl _
  next queue hcas =>
  obtain ⟨r, hr, hp, rfl⟩ := Table.compareAndSet_eq_some.1 hcas
  simp only [decide_eq_true_eq] at hp
  have hrunning := (guardHeld_iff.1 hp.1).1
  exact .modify rfl rfl hr (ne_completed_of_running hrunning) (ne_completed_of_running hrunning)

theorem reapOne_unpublished (now : ℚ) (acc : ℕ × QueueDb) (row : JobRow) :
    Unpublished acc.2 (reapOne now acc row).2 := by
  simp only [reapOne]
  split
  · exact .refl _
  next queue hcas =>
  obtain ⟨r, hr, hp, rfl⟩ := Table.compareAndSet_eq_some.1 hcas
  simp only [decide_eq_true_eq, expiredClaim] at hp
  exact .modify rfl rfl hr (ne_completed_of_running hp.1.1) (by simp [requeuedRow])

theorem reapStaleJobs_unpublished (now : Option ℚ) (clock : Readings) (conn : Connection)
    (db : QueueDb) : Unpublished db (reapStaleJobs now clock conn db).2.2 := by
  have hfold : ∀ time (rows : List JobRow) (acc : ℕ × QueueDb),
      Unpublished acc.2 (rows.foldl (reapOne time) acc).2 := by
    intro time rows
    induction rows with
    | nil => exact fun acc => .refl _
    | cons row rows ih => exact fun acc => (reapOne_unpublished time acc row).trans (ih _)
  exact hfold _ _ (0, db)

theorem insertJob_unpublished {db db' : QueueDb} {args : EnqueueArgs} {digest : Option String}
    {utc : String} (h : insertJob db (queuedRow args db.queue.nextKey digest utc) = some db') :
    Unpublished db db' := by
  obtain ⟨rfl, -⟩ := insertJob_eq_some h
  exact .insert rfl rfl (Table.row_nextKey _) (by simp [queuedRow])

theorem insertMaterialization_unpublished {db db' : QueueDb} {id : String}
    {row : MaterializationRow} (h : insertMaterialization db id row = some db') :
    Unpublished db db' := by
  obtain ⟨-, rfl⟩ := insertMaterialization_eq_some h
  exact .of_queue rfl rfl

theorem enqueueExperiment_unpublished (args : EnqueueArgs) (utc : String) (db : QueueDb) :
    Unpublished db (enqueueExperiment args utc db).2 := by
  simp only [enqueueExperiment]
  split
  · exact .refl _
  next db₁ h₁ =>
  split
  · exact insertJob_unpublished h₁
  split
  · exact .refl _
  next db₂ h₂ => exact (insertJob_unpublished h₁).trans (insertMaterialization_unpublished h₂)

theorem ensureRecovery_unpublished (args : EnqueueArgs) (fileDigest : String → Option String)
    (utc : String) (db : QueueDb) : Unpublished db (ensureRecovery args fileDigest utc db).2 := by
  simp only [ensureRecovery]
  split
  · split
    · exact .refl _
    split <;> exact .refl _
  split
  · exact .refl _
  split
  · exact .refl _
  · exact .refl _
  split
  · exact .refl _
  split
  · exact .of_queue rfl rfl
  split <;> exact .of_queue rfl rfl

theorem ensureExperimentQueued_unpublished (args : EnqueueArgs)
    (fileDigest : String → Option String) (utc : String) (db : QueueDb) :
    Unpublished db (ensureExperimentQueued args fileDigest utc db).2 := by
  unfold ensureExperimentQueued
  split
  · exact ensureRecovery_unpublished args fileDigest utc db
  generalize hreply : ensureTransaction args fileDigest utc db = reply
  have heffect := ensureTransaction_effect args fileDigest utc db
  rw [hreply] at heffect
  generalize reply.1 = answer, reply.2 = db' at heffect ⊢
  cases heffect with
  | raised => exact .refl _
  | lostJob => exact .refl _
  | lostBinding => exact .refl _
  | repeated => exact .refl _
  | shared => exact .refl _
  | aliased _ _ bind => exact insertMaterialization_unpublished bind
  | created _ _ _ insert bind =>
    have h₁ := insertJob_unpublished insert
    split at bind
    · exact bind ▸ h₁
    · exact h₁.trans (insertMaterialization_unpublished bind)

/-- A pending finish is of `fail_job`. -/
def OnlyFails (s : Farm) : Prop :=
  ∀ worker claim how row, s.pending worker = some (.finish claim how row) → how.status = .failed

theorem step_unpublished {s : Farm} (hfails : OnlyFails s) {a : Action}
    (ha : a.unpublished s) : Unpublished s.db (s.step a).db := by
  cases a with
  | enqueue => exact enqueueExperiment_unpublished ..
  | ensure => exact ensureExperimentQueued_unpublished ..
  | ensureRecovery => exact ensureRecovery_unpublished ..
  | claim => exact claimNextJob_unpublished ..
  | begin worker claim request observed =>
    cases request with
    | execute => exact .refl _
    | renew => exact .refl _
    | complete => exact ha.elim
    | fail => exact finishJobCheck_unpublished ..
    | publish => exact ha.elim
  | resume worker obs =>
    simp only [Farm.step]
    split
    · exact .refl _
    next pending hpending =>
    cases pending with
    | execute => exact markJobExecutingWrite_unpublished ..
    | recheck => exact .refl _
    | renew => exact renewJobLeaseWrite_unpublished ..
    | finish claim how row => exact finishJobWrite_unpublished (hfails _ _ _ _ hpending) ..
    | publish claim args => exact absurd hpending (ha claim args)
  | reap => exact reapStaleJobs_unpublished ..
  | recover => exact ha.elim
  | connect => exact .refl _

theorem step_dirs {s : Farm} {a : Action} (ha : a.unpublished s) : (s.step a).dirs = s.dirs := by
  cases a with
  | resume =>
    simp only [Farm.step]
    split <;> rfl
  | recover => exact ha.elim
  | _ => rfl

theorem resume_pending {pending p : Pending} {obs : Observation} {conn : Connection} {db : QueueDb}
    (h : (resume pending obs conn db).1.pending = some p) :
    ∃ claim leaseSeconds row, p = .renew claim leaseSeconds row := by
  cases pending with
  | recheck =>
    obtain ⟨_, -, ha⟩ := replyOf_pending h
    exact ⟨_, _, _, (Option.some.inj ha).symm⟩
  | execute =>
    obtain ⟨_, -, ha⟩ := replyOf_pending h
    simp [Reply.pending] at ha
  | renew =>
    obtain ⟨_, -, ha⟩ := replyOf_pending h
    simp [Reply.pending] at ha
  | finish =>
    obtain ⟨_, -, ha⟩ := replyOf_pending h
    simp [Reply.pending] at ha
  | publish =>
    obtain ⟨_, -, ha⟩ := replyOf_pending h
    simp [Reply.pending] at ha

/-- Such a call waits for nothing, for something that it waited for before, or for a write that
does not publish and does not complete. -/
theorem step_pending {s : Farm} {a : Action} (ha : a.unpublished s) {worker : ℕ} {p : Pending}
    (hp : (s.step a).pending worker = some p) :
    s.pending worker = some p ∨ ((∀ claim args, p ≠ .publish claim args) ∧
      ∀ claim how row, p = .finish claim how row → how.status = .failed) := by
  cases a with
  | begin w claim request observed =>
    simp only [Farm.step, Function.update_apply] at hp
    split_ifs at hp
    · refine Or.inr ?_
      cases request with
      | execute =>
        obtain ⟨_, -, ha⟩ := replyOf_pending hp
        obtain rfl := Option.some.inj ha
        simp
      | renew =>
        obtain ⟨_, -, ha⟩ := replyOf_pending hp
        obtain rfl := Option.some.inj ha
        simp
      | complete => exact ha.elim
      | fail =>
        obtain ⟨_, -, ha⟩ := replyOf_pending hp
        obtain rfl := Option.some.inj ha
        refine ⟨by simp, fun claim how row h => ?_⟩
        obtain ⟨-, rfl, -⟩ := Pending.finish.inj h
        rfl
      | publish => exact ha.elim
    · exact Or.inl hp
  | resume w obs =>
    simp only [Farm.step] at hp
    split at hp
    · exact Or.inl hp
    · simp only [Function.update_apply] at hp
      split_ifs at hp
      · obtain ⟨_, _, _, rfl⟩ := resume_pending hp
        exact Or.inr (by simp)
      · exact Or.inl hp
  | connect w conn =>
    simp only [Farm.step, Function.update_apply] at hp
    split_ifs at hp
    exact Or.inl hp
  | recover => exact ha.elim
  | _ => exact Or.inl hp

/-! ## The publication transaction -/

/-- What a publication that returns has done. -/
structure Committed (claim : Claim) (args : PublishArgs) (imported : Except String ℕ)
    (db db' : QueueDb) : Prop where
  imported : ∃ count, imported = .ok count
  job : ∃ row label utc, db.queue.row claim.jobId = some row ∧ row.status = .running ∧
    row.fencingToken = claim.fencingToken ∧
    db'.queue = db.queue.modify claim.jobId (publishedRow label utc)
  publication : ∃ createdAt, db'.publications = db.publications.upsert claim.key
    ⟨args.provisionalDir, finalLabelOf args.provisionalDir, .pendingRename, createdAt, none⟩
    fun p => { p with
      provisionalPath := args.provisionalDir, finalLabel := finalLabelOf args.provisionalDir }

theorem publishWrite_cases (claim : Claim) (args : PublishArgs) (imported : Except String ℕ)
    (clock : Readings) (utc : String) (conn : Connection) (db : QueueDb) :
    ((∃ e, (publishWrite claim args imported clock utc conn db).1 = .error e) ∧
        (publishWrite claim args imported clock utc conn db).2.2 = db) ∨
      ((∃ count, (publishWrite claim args imported clock utc conn db).1 = .ok count) ∧
        Committed claim args imported db
          (publishWrite claim args imported clock utc conn db).2.2) := by
  simp only [publishWrite]
  split
  · exact Or.inl ⟨⟨_, rfl⟩, rfl⟩
  split
  · exact Or.inl ⟨⟨_, rfl⟩, rfl⟩
  next count =>
  split
  · exact Or.inl ⟨⟨_, rfl⟩, rfl⟩
  split
  · exact Or.inl ⟨⟨_, rfl⟩, rfl⟩
  next queue hcas =>
  obtain ⟨r, hr, hp, rfl⟩ := Table.compareAndSet_eq_some.1 hcas
  simp only [decide_eq_true_eq] at hp
  obtain ⟨hrunning, -, hfence, -⟩ := guardHeld_iff.1 hp.1
  exact Or.inr ⟨⟨_, rfl⟩, ⟨count, rfl⟩, ⟨r, _, _, hr, hrunning, hfence, rfl⟩, ⟨_, rfl⟩⟩

theorem importRunDir_ok {runId label utc : String} {files : RunFiles} {sideTables : Option String}
    {tables tables' : Imports} {count : ℕ}
    (h : importRunDir runId label utc files sideTables tables = .ok (count, tables')) :
    tables'.runs.row runId = some (importedRun runId label utc files) ∧
      tables'.candidatesOf runId = files.rows ∧
      ∀ other, other ≠ runId → tables'.runs.row other = tables.runs.row other ∧
        tables'.candidatesOf other = tables.candidatesOf other := by
  simp only [importRunDir] at h
  split_ifs at h with hkeys
  split at h
  · cases h
  obtain ⟨-, rfl⟩ := Prod.mk.inj (Except.ok.inj h)
  refine ⟨?_, ?_, fun other hother => ⟨?_, ?_⟩⟩
  · simp only [Table.upsert]
    split_ifs with habsent
    · exact Table.insert_row_self habsent _
    · obtain ⟨run, hrun⟩ := Option.ne_none_iff_exists'.1 habsent
      rw [Table.modify_row_self, hrun, Option.map_some]
  · simp [Imports.candidatesOf, List.filter_filter, List.filter_map, Function.comp_def]
  · simp only [Table.upsert]
    split_ifs with habsent
    · exact Table.insert_row_of_ne hother _
    · exact Table.modify_row_of_ne _ hother _
  · have hnew : (files.rows.map fun r => (runId, r)).filter (fun c => c.1 = other) = [] := by
      rw [List.filter_eq_nil_iff]
      intro c hc
      obtain ⟨r, -, rfl⟩ := List.mem_map.1 hc
      simpa using Ne.symm hother
    have hold : (tables.candidates.filter fun c => c.1 ≠ runId).filter (fun c => c.1 = other) =
        tables.candidates.filter fun c => c.1 = other := by
      rw [List.filter_filter]
      refine List.filter_congr fun c _ => ?_
      by_cases hc : c.1 = other <;> simp [hc, hother]
    rw [Imports.candidatesOf, List.filter_append, hnew, hold, List.append_nil]
    rfl

theorem mem_pendingPublications {key : Option (ℕ × ℕ)} {db : QueueDb}
    {entry : (ℕ × ℕ) × PublicationRow} :
    entry ∈ pendingPublications key db ↔ db.publications.row entry.1 = some entry.2 ∧
      entry.2.state = .pendingRename ∧ ∀ k ∈ key, k = entry.1 := by
  obtain ⟨k, p⟩ := entry
  simp only [pendingPublications, List.mem_filterMap, List.mem_filter, Option.bind_eq_some_iff,
    Option.all_eq_true, decide_eq_true_eq, Table.mem_keys]
  constructor
  · rintro ⟨k', ⟨-, hkey⟩, p', hp, heq⟩
    split_ifs at heq with hstate
    obtain ⟨rfl, rfl⟩ := Prod.mk.inj (Option.some.inj heq)
    exact ⟨hp, hstate, hkey⟩
  · rintro ⟨hp, hstate, hkey⟩
    exact ⟨k, ⟨by simp [hp], hkey⟩, p, hp, if_pos hstate⟩

/-! ## The invariant -/

/-- The run and the candidates that the attempt left in its directory are in the tables. -/
def Imported (s : PublicationFarm) (key : ℕ × ℕ) : Prop :=
  ∃ out utc, s.outputs.row key = some out ∧
    s.imports.runs.row out.name = some (importedRun out.name
      ("/".intercalate ["experiments", "completed", out.name]) utc out.files) ∧
    s.imports.candidatesOf out.name = out.files.rows

/-- A publication row points to the directories of its attempt. -/
structure PublicationOf (root : List String) (s : PublicationFarm) (key : ℕ × ℕ) (out : Outputs)
    (p : PublicationRow) : Prop where
  outputs : s.outputs.row key = some out
  provisional : p.provisionalPath = provisionalDir root out
  label : p.finalLabel = finalLabelOf (provisionalDir root out)

/-- A recovery works on publication rows, and updates one only where the final directory is. -/
structure Recovery.Sound (root : List String) (s : PublicationFarm) (call : Recovery) : Prop where
  rows : ∀ entry ∈ call.rows, ∃ p out, s.farm.db.publications.row entry.1 = some p ∧
    PublicationOf root s entry.1 out entry.2
  update : ∀ entry rest, call = ⟨entry :: rest, .update⟩ →
    s.farm.dirs (root ++ entry.2.finalLabel) = true

structure PublicationFarm.Inv (root : List String) (s : PublicationFarm) : Prop where
  names : ∀ key key' out out', s.outputs.row key = some out → s.outputs.row key' = some out' →
    out.name = out'.name → key = key'
  /-- Every directory is the provisional or the final one of an attempt. -/
  known : ∀ path, s.farm.dirs path = true → ∃ key out, s.outputs.row key = some out ∧
    (path = provisionalDir root out ∨
      path = finalDir root out ∧ (s.farm.db.publications.row key).isSome = true)
  /-- An attempt has exactly one of its two directories. -/
  single : ∀ key out, s.outputs.row key = some out →
    s.farm.dirs (provisionalDir root out) = !s.farm.dirs (finalDir root out)
  rows : ∀ key p, s.farm.db.publications.row key = some p →
    ∃ out, PublicationOf root s key out p ∧
      (p.state ≠ .pendingRename → s.farm.dirs (finalDir root out) = true)
  completed : ∀ key, (s.farm.db.publications.row key).isSome = true ↔
    ∃ row, s.farm.db.queue.row key.1 = some row ∧ row.status = .completed ∧
      row.fencingToken = key.2
  imported : ∀ key, (s.farm.db.publications.row key).isSome = true → Imported s key
  publishing : ∀ worker claim args, s.farm.pending worker = some (.publish claim args) →
    ∃ out, s.outputs.row claim.key = some out ∧ args.provisionalDir = provisionalDir root out
  finishing : OnlyFails s.farm
  recovering : ∀ recovery call, s.recoveries recovery = some call → call.Sound root s

variable {root : List String} {s : PublicationFarm}

theorem PublicationFarm.Inv.init (hs : (publications root).init s) : s.Inv root := by
  obtain ⟨⟨hdb, hpending⟩, hdirs, himports, houtputs, hrecoveries⟩ := hs
  constructor
  all_goals simp_all [QueueDb.empty, OnlyFails]

/-- A commit changes nothing, or it stores the import and the publication together. -/
theorem commit_cases {s : PublicationFarm} {worker : ℕ} {claim : Claim} {args : PublishArgs}
    (hpending : s.farm.pending worker = some (.publish claim args)) (obs : CommitObservation) :
    (s.commit worker obs).outputs = s.outputs ∧ (s.commit worker obs).recoveries = s.recoveries ∧
      (s.commit worker obs).farm.dirs = s.farm.dirs ∧
      (∀ w p, (s.commit worker obs).farm.pending w = some p → s.farm.pending w = some p) ∧
      (((s.commit worker obs).imports = s.imports ∧
          (s.commit worker obs).farm.db = s.farm.db) ∨
        ∃ count tables, importOf s claim args obs = .ok (count, tables) ∧
          (s.commit worker obs).imports = tables ∧
          Committed claim args (.ok count) s.farm.db (s.commit worker obs).farm.db) := by
  simp only [PublicationFarm.commit, hpending, Farm.step, resume, true_and]
  refine ⟨fun w p hp => ?_, ?_⟩
  · simp only [Function.update_apply] at hp
    split_ifs at hp
    · obtain ⟨_, -, ha⟩ := replyOf_pending hp
      simp [Reply.pending] at ha
    · exact hp
  generalize importOf s claim args obs = imported
  rcases publishWrite_cases claim args (imported.map Prod.fst) obs.clock obs.utc
    (s.farm.conn worker) s.farm.db with ⟨⟨e, hreply⟩, hsame⟩ | ⟨⟨count, hreply⟩, hcommitted⟩
  · refine Or.inl ⟨?_, hsame⟩
    rw [hreply]
  · refine Or.inr ?_
    obtain ⟨count', himported⟩ := hcommitted.imported
    cases imported with
    | error e => simp [Except.map] at himported
    | ok result =>
      refine ⟨result.1, result.2, rfl, ?_, hcommitted⟩
      rw [hreply]

namespace PublicationFarm.Inv

/-- A step that changes neither a directory nor a publication. -/
theorem of_same {t : PublicationFarm} (h : s.Inv root) (houtputs : t.outputs = s.outputs)
    (hdirs : t.farm.dirs = s.farm.dirs) (himports : t.imports = s.imports)
    (hquiet : Unpublished s.farm.db t.farm.db)
    (hpublishing : ∀ worker claim args, t.farm.pending worker = some (.publish claim args) →
      ∃ out, s.outputs.row claim.key = some out ∧ args.provisionalDir = provisionalDir root out)
    (hfinishing : OnlyFails t.farm)
    (hrecovering : ∀ recovery call, t.recoveries recovery = some call → call.Sound root s) :
    t.Inv root := by
  constructor
  case names => exact houtputs ▸ h.names
  case known =>
    intro path hpath
    rw [houtputs, hquiet.publications]
    exact h.known path (hdirs ▸ hpath)
  case single =>
    intro key out hout
    rw [hdirs]
    exact h.single key out (houtputs ▸ hout)
  case rows =>
    intro key p hp
    obtain ⟨out, hof, hstate⟩ := h.rows key p (hquiet.publications ▸ hp)
    exact ⟨out, ⟨houtputs ▸ hof.1, hof.2, hof.3⟩, hdirs ▸ hstate⟩
  case completed =>
    intro key
    rw [hquiet.publications, h.completed key]
    refine exists_congr fun row => ?_
    constructor
    · rintro ⟨hrow, hstatus, hfence⟩
      exact ⟨(hquiet.completed _ _ hstatus).2 hrow, hstatus, hfence⟩
    · rintro ⟨hrow, hstatus, hfence⟩
      exact ⟨(hquiet.completed _ _ hstatus).1 hrow, hstatus, hfence⟩
  case imported =>
    intro key hkey
    obtain ⟨out, utc, hout, hrun, hcandidates⟩ := h.imported key (hquiet.publications ▸ hkey)
    exact ⟨out, utc, houtputs ▸ hout, himports ▸ hrun, himports ▸ hcandidates⟩
  case publishing => exact houtputs ▸ hpublishing
  case finishing => exact hfinishing
  case recovering =>
    intro recovery call hcall
    obtain ⟨hrows, hupdate⟩ := hrecovering recovery call hcall
    refine ⟨fun entry hentry => ?_, hdirs ▸ hupdate⟩
    obtain ⟨p, out, hp, hof⟩ := hrows entry hentry
    exact ⟨p, out, hquiet.publications ▸ hp, ⟨houtputs ▸ hof.1, hof.2, hof.3⟩⟩

theorem call (h : s.Inv root) {a : Action} (ha : a.unpublished s.farm) :
    (s.step root (.call a)).Inv root := by
  refine h.of_same rfl (step_dirs ha) rfl (step_unpublished h.finishing ha) ?_ ?_ h.recovering
  · intro worker claim args hp
    rcases step_pending ha hp with hp | ⟨hp, -⟩
    · exact h.publishing _ _ _ hp
    · exact absurd rfl (hp claim args)
  · intro worker claim how row hp
    rcases step_pending ha hp with hp | ⟨-, hp⟩
    · exact h.finishing _ _ _ _ hp
    · exact hp _ _ _ rfl

theorem publish (h : s.Inv root) (worker : ℕ) (claim : Claim) (now : Option ℚ) (observed : ℚ) :
    (s.step root (.publish worker claim now observed)).Inv root := by
  simp only [step]
  split
  · exact h
  next out hout =>
  have hpending : ∀ {w p}, (s.farm.step (.begin worker claim
      (.publish (publishArgs root out now s.farm.dirs)) observed)).pending w = some p →
      s.farm.pending w = some p ∨ p = .publish claim (publishArgs root out now s.farm.dirs) := by
    intro w p hp
    simp only [Farm.step, Function.update_apply] at hp
    split_ifs at hp
    · obtain ⟨_, -, hp⟩ := replyOf_pending hp
      exact Or.inr (Option.some.inj hp).symm
    · exact Or.inl hp
  refine h.of_same rfl rfl rfl (.refl _) ?_ ?_ h.recovering
  · intro w claim' args hp
    rcases hpending hp with hp | hp
    · exact h.publishing _ _ _ hp
    · obtain ⟨rfl, rfl⟩ := Pending.publish.inj hp
      exact ⟨out, hout, rfl⟩
  · intro w claim' how row hp
    rcases hpending hp with hp | hp
    · exact h.finishing _ _ _ _ hp
    · cases hp

theorem select (h : s.Inv root) (recovery : ℕ) (key : Option (ℕ × ℕ)) :
    (s.step root (.select recovery key)).Inv root := by
  refine h.of_same rfl rfl rfl (.refl _) h.publishing h.finishing fun r call hcall => ?_
  simp only [step, Function.update_apply] at hcall
  split_ifs at hcall
  · obtain rfl := Option.some.inj hcall
    refine ⟨fun entry hentry => ?_, by simp⟩
    obtain ⟨hp, -⟩ := mem_pendingPublications.1 hentry
    obtain ⟨out, hof, -⟩ := h.rows _ _ hp
    exact ⟨entry.2, out, hp, hof⟩
  · exact h.recovering r call hcall

theorem crash (h : s.Inv root) (recovery : ℕ) : (s.step root (.crash recovery)).Inv root := by
  refine h.of_same rfl rfl rfl (.refl _) h.publishing h.finishing fun r call hcall => ?_
  simp only [step, Function.update_apply] at hcall
  split_ifs at hcall
  exact h.recovering r call hcall

theorem writeOutputs (h : s.Inv root) {key : ℕ × ℕ} {out : Outputs}
    (hkey : s.outputs.row key = none)
    (hname : ∀ key' out', s.outputs.row key' = some out' → out'.name ≠ out.name) :
    (s.step root (.writeOutputs key out)).Inv root := by
  have hkept : ∀ {key' out'}, s.outputs.row key' = some out' →
      (s.outputs.insert key out).row key' = some out' := fun hout => Table.insert_row_some hout
  have hrow : ∀ {key' out'}, (s.outputs.insert key out).row key' = some out' →
      (key' = key ∧ out' = out) ∨ s.outputs.row key' = some out' := by
    intro key' out' hout
    rw [Table.insert_row hkey] at hout
    split_ifs at hout with hk
    · exact Or.inl ⟨hk, (Option.some.inj hout).symm⟩
    · exact Or.inr hout
  have hother : ∀ {path}, path ≠ provisionalDir root out →
      Function.update s.farm.dirs (provisionalDir root out) true path = s.farm.dirs path :=
    fun hne => Function.update_of_ne hne _ _
  have hfinal : ∀ out', Function.update s.farm.dirs (provisionalDir root out) true
      (finalDir root out') = s.farm.dirs (finalDir root out') :=
    fun out' => hother (Ne.symm provisionalDir_ne_finalDir)
  constructor
  case names =>
    intro key₁ key₂ out₁ out₂ h₁ h₂ hsame
    rcases hrow h₁ with ⟨rfl, rfl⟩ | h₁' <;> rcases hrow h₂ with ⟨rfl, rfl⟩ | h₂'
    · rfl
    · exact absurd hsame.symm (hname _ _ h₂')
    · exact absurd hsame (hname _ _ h₁')
    · exact h.names _ _ _ _ h₁' h₂' hsame
  case known =>
    intro path hpath
    by_cases hnew : path = provisionalDir root out
    · exact ⟨key, out, Table.insert_row_self hkey out, Or.inl hnew⟩
    · simp only [step, hother hnew] at hpath
      obtain ⟨key', out', hout, hcase⟩ := h.known path hpath
      exact ⟨key', out', hkept hout, hcase⟩
  case single =>
    intro key' out' hout
    simp only [step, hfinal]
    rcases hrow hout with ⟨rfl, rfl⟩ | hout
    · rw [Function.update_self, eq_comm, Bool.not_eq_true', ← Bool.not_eq_true]
      intro hdir
      obtain ⟨key₁, out₁, h₁, heq | ⟨heq, -⟩⟩ := h.known _ hdir
      · exact provisionalDir_ne_finalDir heq.symm
      · exact hname _ _ h₁ (finalDir_inj heq).symm
    · rw [hother fun heq => hname _ _ hout (provisionalDir_inj heq)]
      exact h.single _ _ hout
  case rows =>
    intro key' p hp
    obtain ⟨out', hof, hstate⟩ := h.rows _ _ hp
    refine ⟨out', ⟨hkept hof.1, hof.2, hof.3⟩, fun hne => ?_⟩
    simp only [step, hfinal]
    exact hstate hne
  case completed => exact h.completed
  case imported =>
    intro key' hkey'
    obtain ⟨out', utc, hout, hrun, hcandidates⟩ := h.imported _ hkey'
    exact ⟨out', utc, hkept hout, hrun, hcandidates⟩
  case publishing =>
    intro worker claim args hp
    obtain ⟨out', hout, hargs⟩ := h.publishing _ _ _ hp
    exact ⟨out', hkept hout, hargs⟩
  case finishing => exact h.finishing
  case recovering =>
    intro recovery call hcall
    obtain ⟨hrows, hupdate⟩ := h.recovering recovery call hcall
    refine ⟨fun entry hentry => ?_, fun entry rest heq => ?_⟩
    · obtain ⟨p, out', hp, hof⟩ := hrows entry hentry
      exact ⟨p, out', hp, ⟨hkept hof.1, hof.2, hof.3⟩⟩
    · obtain ⟨p, out', hp, hof⟩ := hrows entry (heq ▸ List.mem_cons_self)
      have hdir := hupdate entry rest heq
      rw [hof.3, root_append_finalLabel] at hdir ⊢
      simp only [step, hfinal]
      exact hdir

/-- While its job is running under its claim, an attempt has no publication and its directory is
where it was made. -/
theorem unpublished_of_running (h : s.Inv root) {key : ℕ × ℕ} {row : JobRow}
    (hrow : s.farm.db.queue.row key.1 = some row) (hrunning : row.status = .running) :
    s.farm.db.publications.row key = none ∧
      ∀ out, s.outputs.row key = some out → s.farm.dirs (provisionalDir root out) = true := by
  have hnone : s.farm.db.publications.row key = none := by
    rw [← Option.not_isSome_iff_eq_none]
    intro hsome
    obtain ⟨row', hrow', hcompleted, -⟩ := (h.completed key).1 hsome
    obtain rfl := Option.some.inj (hrow.symm.trans hrow')
    simp [hrunning] at hcompleted
  refine ⟨hnone, fun out hout => ?_⟩
  rw [h.single _ _ hout, Bool.not_eq_true', ← Bool.not_eq_true]
  intro hdir
  obtain ⟨key', out', hout', heq | ⟨heq, hsome⟩⟩ := h.known _ hdir
  · exact provisionalDir_ne_finalDir heq.symm
  · obtain rfl := h.names _ _ _ _ hout hout' (finalDir_inj heq)
    simp [hnone] at hsome

theorem commit (h : s.Inv root) {worker : ℕ} {claim : Claim} {args : PublishArgs}
    (hpending : s.farm.pending worker = some (.publish claim args)) (obs : CommitObservation) :
    (s.step root (.commit worker obs)).Inv root := by
  obtain ⟨out, hout, hargs⟩ := h.publishing _ _ _ hpending
  obtain ⟨houtputs, hrecoveries, hdirs, hkeep, hcase⟩ := commit_cases hpending obs
  change (s.commit worker obs).Inv root
  generalize s.commit worker obs = t at *
  rcases hcase with ⟨himports, hdb⟩ | ⟨count, tables, himport, rfl, hcommitted⟩
  · exact h.of_same houtputs hdirs himports (hdb ▸ .refl _)
      (fun w claim' args' hp => h.publishing _ _ _ (hkeep _ _ hp))
      (fun w claim' how row hp => h.finishing _ _ _ _ (hkeep _ _ hp))
      (hrecoveries ▸ h.recovering)
  obtain ⟨row, label, utc, hrow, hrunning, hfence, hqueue⟩ := hcommitted.job
  obtain ⟨createdAt, hupsert⟩ := hcommitted.publication
  have hkey : s.farm.db.queue.row claim.key.1 = some row := hrow
  obtain ⟨hnone, hplace⟩ := h.unpublished_of_running hkey hrunning
  have hpublications : ∀ k, t.farm.db.publications.row k = if k = claim.key then
      some ⟨args.provisionalDir, finalLabelOf args.provisionalDir, .pendingRename, createdAt, none⟩
      else s.farm.db.publications.row k := by
    intro k
    rw [hupsert, Table.upsert, if_pos hnone, Table.insert_row hnone]
  have hkept : ∀ {k p}, s.farm.db.publications.row k = some p →
      t.farm.db.publications.row k = some p := by
    intro k p hp
    rw [hpublications, if_neg, hp]
    rintro rfl
    simp [hnone] at hp
  have hrunId : runIdOf args = out.name := by
    rw [runIdOf, hargs, getLastD_provisionalDir]
  have hfiles : filesAt s claim args.provisionalDir = out.files := by
    simp only [filesAt, hout, hargs, hplace _ hout, if_true]
  rw [importOf, hrunId, hfiles] at himport
  obtain ⟨hrun, hcandidates, hothers⟩ := importRunDir_ok himport
  constructor
  case names => exact houtputs ▸ h.names
  case known =>
    intro path hpath
    rw [houtputs]
    obtain ⟨k, out', hout', hcase⟩ := h.known path (hdirs ▸ hpath)
    refine ⟨k, out', hout', hcase.imp_right fun ⟨heq, hsome⟩ => ⟨heq, ?_⟩⟩
    obtain ⟨p, hp⟩ := Option.isSome_iff_exists.1 hsome
    rw [hkept hp]
    rfl
  case single =>
    intro k out' hout'
    rw [hdirs]
    exact h.single k out' (houtputs ▸ hout')
  case rows =>
    intro k p hp
    rw [hpublications] at hp
    split_ifs at hp with hk
    · obtain rfl := Option.some.inj hp
      subst hk
      exact ⟨out, ⟨houtputs ▸ hout, hargs, by rw [hargs]⟩, fun hne => absurd rfl hne⟩
    · obtain ⟨out', hof, hstate⟩ := h.rows k p hp
      exact ⟨out', ⟨houtputs ▸ hof.1, hof.2, hof.3⟩, hdirs ▸ hstate⟩
  case completed =>
    intro k
    rw [hpublications, hqueue]
    by_cases hk : k = claim.key
    · subst hk
      simp only [if_true, Option.isSome_some, true_iff]
      refine ⟨publishedRow label utc row, ?_, rfl, hfence⟩
      rw [show claim.key.1 = claim.jobId from rfl, Table.modify_row_self, hrow]
      rfl
    · rw [if_neg hk, h.completed k]
      by_cases hjob : k.1 = claim.jobId
      · -- the job ran under another fence, and now it is completed under that one
        rw [hjob, Table.modify_row_self, hrow, Option.map_some]
        constructor
        · rintro ⟨row', hrow', hcompleted, -⟩
          obtain rfl := Option.some.inj hrow'
          simp [hrunning] at hcompleted
        · rintro ⟨row', hrow', -, hfence'⟩
          obtain rfl := Option.some.inj hrow'
          have hsecond : k.2 = claim.key.2 := hfence'.symm.trans hfence
          exact absurd (Prod.ext hjob hsecond) hk
      · rw [Table.modify_row_of_ne _ hjob]
  case imported =>
    intro k hk
    rw [hpublications] at hk
    split_ifs at hk with heq
    · subst heq
      refine ⟨out, obs.importedAt, houtputs ▸ hout, ?_, hcandidates⟩
      rw [hrun, hargs, finalLabelOf_provisionalDir]
    · obtain ⟨out', utc', hout', hrun', hcandidates'⟩ := h.imported k hk
      have hne : out'.name ≠ out.name := fun hsame => heq (h.names _ _ _ _ hout' hout hsame)
      obtain ⟨hsameRun, hsameCandidates⟩ := hothers _ hne
      exact ⟨out', utc', houtputs ▸ hout', hsameRun.trans hrun',
        hsameCandidates.trans hcandidates'⟩
  case publishing =>
    intro w claim' args' hp
    rw [houtputs]
    exact h.publishing _ _ _ (hkeep _ _ hp)
  case finishing => exact fun w claim' how row hp => h.finishing _ _ _ _ (hkeep _ _ hp)
  case recovering =>
    intro recovery call hcall
    obtain ⟨hrows, hupdate⟩ := h.recovering recovery call (hrecoveries ▸ hcall)
    refine ⟨fun entry hentry => ?_, hdirs ▸ hupdate⟩
    obtain ⟨p, out', hp, hof⟩ := hrows entry hentry
    exact ⟨p, out', hkept hp, ⟨houtputs ▸ hof.1, hof.2, hof.3⟩⟩

/-- An update of the row of a publication that leaves its paths alone and moves it on only where
the final directory is. -/
theorem modify (h : s.Inv root) {key : ℕ × ℕ} {f : PublicationRow → PublicationRow}
    {db : QueueDb} (hqueue : db.queue = s.farm.db.queue)
    (hdb : db.publications = s.farm.db.publications.modify key f)
    (hpaths : ∀ p, (f p).provisionalPath = p.provisionalPath ∧ (f p).finalLabel = p.finalLabel)
    (hstate : ∀ p out, s.farm.db.publications.row key = some p → PublicationOf root s key out p →
      (f p).state ≠ .pendingRename → s.farm.dirs (finalDir root out) = true) :
    PublicationFarm.Inv root { s with farm := { s.farm with db := db } } := by
  have hrow : ∀ k p, db.publications.row k = some p → ∃ p', s.farm.db.publications.row k = some p' ∧
      (p = p' ∨ (k = key ∧ p = f p')) := by
    intro k p hp
    rw [hdb, Table.modify_row] at hp
    split_ifs at hp with hk
    · obtain ⟨p', hp', rfl⟩ := Option.map_eq_some_iff.1 hp
      exact ⟨p', hk ▸ hp', Or.inr ⟨hk, rfl⟩⟩
    · exact ⟨p, hp, Or.inl rfl⟩
  have hsome : ∀ k, (db.publications.row k).isSome = (s.farm.db.publications.row k).isSome := by
    intro k
    rw [hdb, Table.modify_row]
    split_ifs with hk
    · rw [Option.isSome_map, hk]
    · rfl
  constructor
  case names => exact h.names
  case known =>
    intro path hpath
    obtain ⟨k, out, hout, hcase⟩ := h.known path hpath
    exact ⟨k, out, hout, hcase.imp_right fun ⟨heq, hk⟩ => ⟨heq, (hsome k).trans hk⟩⟩
  case single => exact h.single
  case rows =>
    intro k p hp
    obtain ⟨p', hp', hcase⟩ := hrow k p hp
    obtain ⟨out, hof, hmoved⟩ := h.rows k p' hp'
    rcases hcase with rfl | ⟨rfl, rfl⟩
    · exact ⟨out, ⟨hof.1, hof.2, hof.3⟩, hmoved⟩
    · obtain ⟨hprovisional, hlabel⟩ := hpaths p'
      exact ⟨out, ⟨hof.1, hprovisional.trans hof.2, hlabel.trans hof.3⟩, hstate p' out hp' hof⟩
  case completed =>
    intro k
    simp only [hsome, hqueue]
    exact h.completed k
  case imported => exact fun k hk => h.imported k ((hsome k).symm.trans hk)
  case publishing => exact h.publishing
  case finishing => exact h.finishing
  case recovering =>
    intro recovery call hcall
    obtain ⟨hrows, hupdate⟩ := h.recovering recovery call hcall
    refine ⟨fun entry hentry => ?_, hupdate⟩
    obtain ⟨p, out, hp, hof⟩ := hrows entry hentry
    obtain ⟨p', hp'⟩ := Option.isSome_iff_exists.1
      ((hsome entry.1).trans (Option.isSome_iff_exists.2 ⟨p, hp⟩))
    exact ⟨p', out, hp', ⟨hof.1, hof.2, hof.3⟩⟩

theorem mark (h : s.Inv root) (key : ℕ × ℕ) (now : ℚ) : (s.step root (.mark key now)).Inv root := by
  simp only [step, markPublicationIndexesPublished]
  split
  · exact h
  next publications hcas =>
  obtain ⟨p, hp, hready, rfl⟩ := Table.compareAndSet_eq_some.1 hcas
  refine h.modify rfl rfl (fun p => ⟨rfl, rfl⟩) fun p' out hp' hof _ => ?_
  obtain rfl := Option.some.inj (hp.symm.trans hp')
  obtain ⟨out', hof', hmoved⟩ := h.rows key p hp
  obtain rfl := Option.some.inj (hof.1.symm.trans hof'.1)
  refine hmoved fun hpending => ?_
  simp [hpending] at hready

end PublicationFarm.Inv

/-! ## The accesses of a recovery -/

section
variable {key : ℕ × ℕ} {row : PublicationRow} {out : Outputs} {now : ℚ}
  {rest : List ((ℕ × ℕ) × PublicationRow)} {dirs : Directories} {db : QueueDb}

theorem access_look (hof : PublicationOf root s key out row) :
    recoverAccess root now ⟨(key, row) :: rest, .look⟩ dirs db =
      (.ok (some ⟨(key, row) :: rest, if dirs (provisionalDir root out) then .lookFinal
        else .lookAgain⟩), dirs, db) := by
  have hprovisional : relativeTo (provisionalRoot root) (provisionalDir root out) = true :=
    relativeTo_append _ _
  have hfinal : relativeTo (completedRoot root) (finalDir root out) = true := relativeTo_append _ _
  simp only [recoverAccess, hof.2, hof.3, root_append_finalLabel, hprovisional, hfinal,
    getLastD_finalDir, getLastD_provisionalDir, ne_eq, not_true_eq_false, if_false, Bool.not_true,
    Bool.false_eq_true]
  split_ifs <;> rfl

theorem access_lookFinal (hof : PublicationOf root s key out row) :
    recoverAccess root now ⟨(key, row) :: rest, .lookFinal⟩ dirs db =
      (if dirs (finalDir root out) then .error bothDirectories
        else .ok (some ⟨(key, row) :: rest, .lookAgain⟩), dirs, db) := by
  simp only [recoverAccess, hof.3, root_append_finalLabel]
  split_ifs <;> rfl

theorem access_lookAgain (hof : PublicationOf root s key out row) :
    recoverAccess root now ⟨(key, row) :: rest, .lookAgain⟩ dirs db =
      (.ok (some ⟨(key, row) :: rest, if dirs (provisionalDir root out) then .rename
        else .lookPublished⟩), dirs, db) := by
  simp only [recoverAccess, hof.2]
  split_ifs <;> rfl

theorem access_rename (hof : PublicationOf root s key out row)
    (hsingle : dirs (provisionalDir root out) = !dirs (finalDir root out)) :
    recoverAccess root now ⟨(key, row) :: rest, .rename⟩ dirs db =
      if dirs (provisionalDir root out) then
        (.ok (some ⟨(key, row) :: rest, .lookPublished⟩),
          renameDirectory (provisionalDir root out) (finalDir root out) dirs, db)
      else (.error (.other "provisional directory cannot be replaced"), dirs, db) := by
  simp only [recoverAccess, hof.2, hof.3, root_append_finalLabel]
  cases hfinal : dirs (finalDir root out) <;> simp [hsingle, hfinal]

theorem access_lookPublished (hof : PublicationOf root s key out row) :
    recoverAccess root now ⟨(key, row) :: rest, .lookPublished⟩ dirs db =
      (.ok (some (if dirs (finalDir root out) then ⟨(key, row) :: rest, .update⟩
        else ⟨rest, .look⟩)), dirs, db) := by
  simp only [recoverAccess, hof.3, root_append_finalLabel]
  split_ifs <;> rfl

/-- What the update makes of a publication. -/
def publishedDirectory (now : ℚ) (p : PublicationRow) : PublicationRow :=
  if p.state = .pendingRename then { p with state := .directoryPublished, publishedAt := some now }
  else p

theorem access_update : recoverAccess root now ⟨(key, row) :: rest, .update⟩ dirs db =
      (.ok (some ⟨rest, .look⟩), dirs,
        { db with publications := db.publications.modify key (publishedDirectory now) }) := by
  simp only [recoverAccess]
  split
  next hnone =>
    have hsame : db.publications.modify key (publishedDirectory now) = db.publications := by
      ext1
      · rfl
      funext k
      rw [Table.modify_row]
      split_ifs with hk
      · subst hk
        cases hp : db.publications.row k with
        | none => rfl
        | some p =>
          have hstate := Table.compareAndSet_eq_none.1 hnone p hp
          simp only [decide_eq_false_iff_not] at hstate
          simp [publishedDirectory, hstate]
      · rfl
    rw [hsame]
  next publications hcas =>
    obtain ⟨p, hp, hstate, rfl⟩ := Table.compareAndSet_eq_some.1 hcas
    simp only [decide_eq_true_eq] at hstate
    have hsame : db.publications.modify key (fun p =>
        { p with state := .directoryPublished, publishedAt := some now }) =
        db.publications.modify key (publishedDirectory now) := by
      ext1
      · rfl
      funext k
      rw [Table.modify_row, Table.modify_row]
      split_ifs
      · rw [hp, Option.map_some, Option.map_some, publishedDirectory, if_pos hstate]
      · rfl
    rw [hsame]

end

section
variable {dirs : Directories} {out out' : Outputs}

theorem renameDirectory_finalDir :
    renameDirectory (provisionalDir root out) (finalDir root out) dirs (finalDir root out') = true ↔
      out'.name = out.name ∨ dirs (finalDir root out') = true := by
  simp only [renameDirectory]
  by_cases hname : out'.name = out.name
  · have heq : finalDir root out' = finalDir root out := by simp only [finalDir, hname]
    simp [heq, hname]
  · have hne : finalDir root out' ≠ finalDir root out := fun heq => hname (finalDir_inj heq)
    simp [hne, hname, Ne.symm provisionalDir_ne_finalDir]

theorem renameDirectory_provisionalDir :
    renameDirectory (provisionalDir root out) (finalDir root out) dirs (provisionalDir root out') =
      true ↔ out'.name ≠ out.name ∧ dirs (provisionalDir root out') = true := by
  simp only [renameDirectory, if_neg provisionalDir_ne_finalDir]
  by_cases hname : out'.name = out.name
  · have heq : provisionalDir root out' = provisionalDir root out := by
      simp only [provisionalDir, hname]
    simp [heq, hname]
  · have hne : provisionalDir root out' ≠ provisionalDir root out := fun heq =>
      hname (provisionalDir_inj heq)
    simp [hne, hname]

end

namespace PublicationFarm.Inv

theorem update_recovery (h : s.Inv root) (recovery : ℕ) {c : Option Recovery}
    (hc : ∀ call, c = some call → call.Sound root s) :
    PublicationFarm.Inv root { s with recoveries := Function.update s.recoveries recovery c } := by
  refine h.of_same rfl rfl rfl (.refl _) h.publishing h.finishing fun r call hcall => ?_
  simp only [Function.update_apply] at hcall
  split_ifs at hcall
  · exact hc call hcall
  · exact h.recovering r call hcall

theorem rename (h : s.Inv root) {key : ℕ × ℕ} {out : Outputs}
    (hout : s.outputs.row key = some out)
    (hpublication : (s.farm.db.publications.row key).isSome = true) :
    PublicationFarm.Inv root { s with farm := { s.farm with
      dirs := renameDirectory (provisionalDir root out) (finalDir root out) s.farm.dirs } } := by
  constructor
  case names => exact h.names
  case known =>
    intro path hpath
    simp only [renameDirectory] at hpath
    split_ifs at hpath with hfinal hprovisional
    · exact ⟨key, out, hout, Or.inr ⟨hfinal, hpublication⟩⟩
    · exact h.known path hpath
  case single =>
    intro key' out' hout'
    rw [Bool.eq_iff_iff, Bool.not_eq_true', ← Bool.not_eq_true, renameDirectory_finalDir,
      renameDirectory_provisionalDir, h.single _ _ hout', Bool.not_eq_true', ← Bool.not_eq_true,
      not_or]
  case rows =>
    intro key' p hp
    obtain ⟨out', hof, hstate⟩ := h.rows key' p hp
    exact ⟨out', ⟨hof.1, hof.2, hof.3⟩, fun hne => renameDirectory_finalDir.2 (Or.inr (hstate hne))⟩
  case completed => exact h.completed
  case imported => exact h.imported
  case publishing => exact h.publishing
  case finishing => exact h.finishing
  case recovering =>
    intro recovery call hcall
    obtain ⟨hrows, hupdate⟩ := h.recovering recovery call hcall
    have hrows' : ∀ entry ∈ call.rows, ∃ p out, s.farm.db.publications.row entry.1 = some p ∧
        PublicationOf root s entry.1 out entry.2 := hrows
    refine ⟨fun entry hentry => ?_, fun entry rest heq => ?_⟩
    · obtain ⟨p, out', hp, hof⟩ := hrows' entry hentry
      exact ⟨p, out', hp, ⟨hof.1, hof.2, hof.3⟩⟩
    · obtain ⟨p, out', hp, hof⟩ := hrows' entry (heq ▸ List.mem_cons_self)
      have hdir := hupdate entry rest heq
      rw [hof.3, root_append_finalLabel] at hdir ⊢
      exact renameDirectory_finalDir.2 (Or.inr hdir)

/-- The rest of a sound recovery, at any access but the update. -/
theorem sound_of_suffix {call call' : Recovery} (h : call.Sound root s)
    (hrows : ∀ entry ∈ call'.rows, entry ∈ call.rows) (hstage : call'.stage ≠ .update) :
    call'.Sound root s :=
  ⟨fun entry hentry => h.rows entry (hrows entry hentry), fun _ _ heq => absurd (heq ▸ rfl) hstage⟩

theorem access (h : s.Inv root) (recovery : ℕ) (now : ℚ) :
    (s.step root (.access recovery now)).Inv root := by
  simp only [step]
  split
  · exact h
  next call hcall =>
  have hsound := h.recovering recovery call hcall
  obtain ⟨rows, stage⟩ := call
  cases rows with
  | nil => exact h.update_recovery recovery (by simp [recoverAccess, callOf])
  | cons entry rest =>
    obtain ⟨key, row⟩ := entry
    obtain ⟨p, out, hp, hof⟩ := hsound.rows _ List.mem_cons_self
    have hsingle := h.single _ _ hof.1
    have hsame : ∀ {c : Recovery}, c.rows = (key, row) :: rest ∨ c.rows = rest → c.stage ≠ .update →
        c.Sound root s := by
      intro c hrows hstage
      refine sound_of_suffix hsound (fun entry hentry => ?_) hstage
      rcases hrows with hrows | hrows
      · exact hrows ▸ hentry
      · exact List.mem_cons_of_mem _ (hrows ▸ hentry)
    cases stage with
    | look =>
      rw [access_look hof]
      refine h.update_recovery recovery fun c hc => hsame (Or.inl ?_) ?_
      · rw [← Option.some.inj hc]
      · rw [← Option.some.inj hc]
        dsimp only
        split_ifs <;> simp
    | lookFinal =>
      rw [access_lookFinal hof]
      refine h.update_recovery recovery fun c hc => ?_
      split_ifs at hc
      · cases hc
      · exact hsame (Or.inl (by rw [← Option.some.inj hc])) (by rw [← Option.some.inj hc]; simp)
    | lookAgain =>
      rw [access_lookAgain hof]
      refine h.update_recovery recovery fun c hc => hsame (Or.inl ?_) ?_
      · rw [← Option.some.inj hc]
      · rw [← Option.some.inj hc]
        dsimp only
        split_ifs <;> simp
    | rename =>
      rw [access_rename hof hsingle]
      split_ifs with hdir
      · refine (h.rename hof.1 (by simp [hp])).update_recovery recovery fun c hc => ?_
        obtain rfl := Option.some.inj hc
        obtain ⟨hrows, -⟩ := hsound
        exact ⟨fun entry hentry =>
          let ⟨p, out, hp, hof⟩ := hrows entry hentry
          ⟨p, out, hp, ⟨hof.1, hof.2, hof.3⟩⟩, by simp⟩
      · exact h.update_recovery recovery (by simp [callOf])
    | lookPublished =>
      rw [access_lookPublished hof]
      refine h.update_recovery recovery fun c hc => ?_
      split_ifs at hc with hdir
      · obtain rfl := Option.some.inj hc
        refine ⟨hsound.rows, fun entry rest' heq => ?_⟩
        obtain rfl := (List.cons.inj (Recovery.mk.inj heq).1).1
        rw [hof.3, root_append_finalLabel]
        exact hdir
      · obtain rfl := Option.some.inj hc
        exact hsame (Or.inr rfl) (by simp)
    | update =>
      rw [access_update]
      have hdir := hsound.update _ _ rfl
      rw [hof.3, root_append_finalLabel] at hdir
      have hmodify : PublicationFarm.Inv root { s with farm := { s.farm with
          db := { s.farm.db with publications :=
            s.farm.db.publications.modify key (publishedDirectory now) } } } := by
        have hrows := rfl (a := s.farm.db.publications.modify key (publishedDirectory now))
        refine h.modify rfl hrows (fun p => ?_) fun p' out' _ hof' _ => ?_
        · simp only [publishedDirectory]
          split_ifs <;> exact ⟨rfl, rfl⟩
        · obtain rfl := Option.some.inj (hof.1.symm.trans hof'.1)
          exact hdir
      refine hmodify.update_recovery recovery fun c hc => ?_
      obtain rfl := Option.some.inj hc
      have hrest := hmodify.recovering recovery _ hcall
      exact sound_of_suffix hrest (fun entry hentry => List.mem_cons_of_mem _ hentry) (by simp)

/-- The invariant survives every step. -/
theorem step (h : s.Inv root) {a : PublicationAction} (ha : s.enabled a) :
    (s.step root a).Inv root := by
  cases a with
  | call action => exact h.call ha.2
  | writeOutputs key out => exact h.writeOutputs ha.1 ha.2
  | publish => exact h.publish ..
  | commit worker obs =>
    obtain ⟨claim, args, hpending⟩ := ha
    exact h.commit hpending obs
  | select => exact h.select ..
  | access => exact h.access ..
  | crash => exact h.crash _
  | mark => exact h.mark ..

end PublicationFarm.Inv

theorem publicationInv_of_reachable (hs : (publications root).Reachable s) : s.Inv root :=
  hs.invariant (fun _ => PublicationFarm.Inv.init) fun _ _ _ h ha => h.step ha

end ResearchLab.ComputeQueue
