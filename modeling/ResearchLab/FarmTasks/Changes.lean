import Mathlib
import ResearchLab.FarmTasks.Outbox

/-!
# What a call can do to the brain database

`Change` lists the changes that one update of a task or of an intent makes, with the guard
under which it is made, and every call is a chain of them. A `Policy` restricts the calls that
are made: which tasks are created, under which ids intents are prepared, what `_set_state`
writes and which parked tasks are finished.
-/
namespace ResearchLab.FarmTasks
open Foundation

structure Policy where
  creates : EnqueueArgs → Prop
  intends : String → ℕ → ℕ → Prop
  changes : ℕ → StateRequest → Prop
  finishes : ℕ → FinishArgs → Prop
  waits : ∀ args, creates args →
    args.state = .queued ∨ args.state = .deferred ∨ args.state = .blocked

def Policy.withChanges (P : Policy) (changes : ℕ → StateRequest → Prop) : Policy :=
  { P with changes }

/-- One row is replaced, the others stay. -/
structure Rewrites (db db' : TaskDb) (tid : ℕ) (r r' : TaskRow) : Prop where
  present : db.tasks.row tid = some r
  rows : ∀ k, db'.tasks.row k = if k = tid then some r' else db.tasks.row k

/-- The moves of a task from state to state that touch no intent. -/
inductive TaskMove (P : Policy) (tid : ℕ) (r : TaskRow) : TaskRow → Prop
  | claimed {owner : String} {before now expires : ℚ}
      (ready : r.state = .queued ∨
        (r.state = .deferred ∧ ∃ u ∈ r.deferredUntil, u ≤ before))
      (unclaimed : r.claimOwner = none) : TaskMove P tid r (claimedTask owner now expires r)
  | changed {req : StateRequest} {now : ℚ} (changes : P.changes tid req)
      (unclaimed : r.claimOwner = none → r.state ≠ .running) :
      TaskMove P tid r (changedTask req now r)
  | reaped {reason : String} {now : ℚ} (expired : expiredTask now r = true) :
      TaskMove P tid r (reapedTask reason now r)
  | skipped {reason : String} {now : ℚ} (waiting : r.state = .queued ∨ r.state = .deferred)
      (unclaimed : r.claimOwner = none) : TaskMove P tid r (skippedTask reason now r)
  | finished {args : FinishArgs} {now : ℚ} (finishes : P.finishes tid args)
      (waiting : parked r = true) : TaskMove P tid r (finishedTask args now r)

/-- The log row of a move. -/
structure Logs (t : TransitionRow) (tid : ℕ) (r r' : TaskRow) : Prop where
  task : t.taskId = tid
  source : t.fromState = r.state
  target : t.toState = r'.state
  seq : t.mutationSeq = r.mutationSeq + 1

/-- The running task and its open intent are bound together. -/
structure Parks (db db' : TaskDb) (tid : ℕ) (r : TaskRow) (id : String) (o : OutboxRow)
    (job : ℕ) (now : ℚ) : Prop where
  rewrites : Rewrites db db' tid r (parkedTask job now r)
  running : r.state = .running
  claimed : r.claimOwner ≠ none
  intent : db.outbox.row id = some o
  task : o.taskId = tid
  fence : o.taskFencingToken = r.fencingToken
  opened : o.state.open = true
  outbox : db'.outbox = db.outbox.modify id (acknowledge job now)

inductive Change (P : Policy) (db db' : TaskDb) : Prop
  | inserted {args : EnqueueArgs} {tid : ℕ} {now : ℚ} (creates : P.creates args)
      (absent : db.tasks.row tid = none)
      (rows : ∀ k, db'.tasks.row k =
        if k = tid then some (newTask args tid now) else db.tasks.row k)
      (log : db'.transitions = db.transitions) (outbox : db'.outbox = db.outbox)
  | touched {tid : ℕ} {r : TaskRow} {priority : ℤ} {sourceEventId : Option String} {now : ℚ}
      (rewrites : Rewrites db db' tid r (reprioritizedTask priority sourceEventId now r))
      (log : db'.transitions = db.transitions) (outbox : db'.outbox = db.outbox)
  | renewed {tid : ℕ} {r : TaskRow} {expires now : ℚ} (running : r.state = .running)
      (claimed : r.claimOwner ≠ none)
      (rewrites : Rewrites db db' tid r (renewedTask expires now r))
      (log : db'.transitions = db.transitions) (outbox : db'.outbox = db.outbox)
  | moved {tid : ℕ} {r r' : TaskRow} {t : TransitionRow} (rewrites : Rewrites db db' tid r r')
      (move : TaskMove P tid r r') (logged : Logs t tid r r')
      (log : db'.transitions = db.transitions ++ [t]) (outbox : db'.outbox = db.outbox)
  | bound {tid : ℕ} {r : TaskRow} {id : String} {o : OutboxRow} {job : ℕ} {now : ℚ}
      {t : TransitionRow} (parks : Parks db db' tid r id o job now)
      (logged : Logs t tid r (parkedTask job now r))
      (log : db'.transitions = db.transitions ++ [t])
  | prepared {tid : ℕ} {r : TaskRow} {id : String} {o : OutboxRow} {now : ℚ}
      (tasks : db'.tasks = db.tasks) (log : db'.transitions = db.transitions)
      (present : db.tasks.row tid = some r) (running : r.state = .running)
      (intends : P.intends id tid r.fencingToken) (unused : db.outbox.row id = none)
      (task : o.taskId = tid) (fence : o.taskFencingToken = r.fencingToken)
      (pending : o.state = .pending)
      (outbox : db'.outbox = (supersede tid r.fencingToken now db.outbox).insert id o)
  | marked {id : String} {o : OutboxRow} {mark : Mark} {now : ℚ} (tasks : db'.tasks = db.tasks)
      (log : db'.transitions = db.transitions) (intent : db.outbox.row id = some o)
      (opened : o.state.open = true)
      (outbox : db'.outbox = db.outbox.modify id (mark.apply now))
  | charged (tasks : db'.tasks = db.tasks) (log : db'.transitions = db.transitions)
      (outbox : db'.outbox = db.outbox)

abbrev Changes (P : Policy) : TaskDb → TaskDb → Prop := Relation.ReflTransGen (Change P)

/-! ## The calls -/

variable {P : Policy} {db db' : TaskDb}

theorem rewrites_modify {tid : ℕ} {r : TaskRow} {f : TaskRow → TaskRow}
    (h : db.tasks.row tid = some r) (hdb : db'.tasks = db.tasks.modify tid f) :
    Rewrites db db' tid r (f r) := by
  refine ⟨h, fun k => ?_⟩
  rw [hdb, Table.modify_row, h]
  rfl

theorem insertTask_changes {args : EnqueueArgs} (hargs : P.creates args) (now : ℚ)
    (db : TaskDb) : Changes P db (insertTask args now db).2 := by
  unfold insertTask
  split_ifs
  · exact .refl
  · exact .single (.inserted hargs (Table.row_nextKey _)
      (Table.insert_row (Table.row_nextKey _) _) rfl rfl)

theorem lowerPriority_changes (tid : ℕ) (priority : ℤ) (sourceEventId : Option String)
    (now : ℚ) (db : TaskDb) : Changes P db (lowerPriority tid priority sourceEventId now db) := by
  cases h : db.tasks.row tid with
  | none => exact .single (.charged (Table.modify_of_none h _) rfl rfl)
  | some r => exact .single (.touched (rewrites_modify h rfl) rfl rfl)

theorem foldl_modify_row {f : TaskRow → TaskRow} {ks : List ℕ} (hks : ks.Nodup)
    (tasks : Table ℕ TaskRow) (k : ℕ) :
    (ks.foldl (fun t k => t.modify k f) tasks).row k =
      if k ∈ ks then (tasks.row k).map f else tasks.row k := by
  induction ks generalizing tasks with
  | nil => rfl
  | cons k' ks ih =>
    obtain ⟨hk', hks⟩ := List.nodup_cons.1 hks
    rw [List.foldl_cons, ih hks, Table.modify_row]
    by_cases hk : k = k'
    · subst hk
      simp [hk']
    · simp [hk]

/-- Opening a store updates the priority of one task after the other. -/
theorem migratePriorityScale_changes (db : TaskDb) : Changes P db (migratePriorityScale db) := by
  have hchain : ∀ (ks : List ℕ) (db : TaskDb),
      Changes P db { db with tasks := ks.foldl (fun t k => t.modify k scaledTask) db.tasks } := by
    intro ks
    induction ks with
    | nil => exact fun _ => .refl
    | cons k ks ih =>
      intro db
      refine .head ?_ (ih { db with tasks := db.tasks.modify k scaledTask })
      cases h : db.tasks.row k with
      | none => exact .charged (Table.modify_of_none h _) rfl rfl
      | some r =>
        -- no source event is given, and the time of the last update stays
        have hrewrites : Rewrites db { db with tasks := db.tasks.modify k scaledTask } k r
            (reprioritizedTask (scaledTask r).priority none r.updatedAt r) :=
          rewrites_modify (f := scaledTask) h rfl
        exact .touched hrewrites rfl rfl
  have htasks : (migratePriorityScale db).tasks =
      db.tasks.keys.foldl (fun t k => t.modify k scaledTask) db.tasks := by
    have hkeys : ∀ (ks : List ℕ) (t : Table ℕ TaskRow),
        (ks.foldl (fun t k => t.modify k scaledTask) t).keys = t.keys := by
      intro ks
      induction ks with
      | nil => exact fun _ => rfl
      | cons k ks ih => exact fun t => (ih (t.modify k scaledTask)).trans rfl
    ext1
    · exact (hkeys db.tasks.keys db.tasks).symm
    · funext k
      rw [migratePriorityScale_row, foldl_modify_row db.tasks.nodup]
      split_ifs with hk
      · rfl
      · have hnone : db.tasks.row k = none := by
          rw [db.tasks.mem_keys] at hk
          simpa using hk
        rw [hnone]
        rfl
  have hdb : migratePriorityScale db =
      { db with tasks := db.tasks.keys.foldl (fun t k => t.modify k scaledTask) db.tasks } := by
    rw [← htasks]
    rfl
  rw [hdb]
  exact hchain _ db

theorem enqueueTask_changes {args : EnqueueArgs} (hargs : P.creates args) (now : ℚ)
    (db : TaskDb) : Changes P db (enqueueTask args now db).2 := by
  simp only [enqueueTask]
  split
  · split_ifs
    · exact lowerPriority_changes ..
    · exact .refl
  split
  · exact .refl
  have h := insertTask_changes hargs now db
  split
  · next heq => simpa [heq] using h
  · next heq => simpa [heq] using h

/-- Every row carries its own key. -/
def Keyed (db : TaskDb) : Prop := ∀ k r, db.tasks.row k = some r → r.taskId = k

theorem claimNextTask_changes (hkey : Keyed db) (args : ClaimArgs) (clock : Readings)
    (store : Store) : Changes P db (claimNextTask args clock store db).2.2 := by
  simp only [claimNextTask]
  split
  · exact .refl
  split
  · exact .refl
  split
  · exact .refl
  next row hrow =>
  split
  · exact .refl
  next tasks hcas =>
  obtain ⟨r, hr, hp, rfl⟩ := Table.compareAndSet_eq_some.1 hcas
  obtain ⟨-, hclaim, -⟩ := of_decide_eq_true hp
  obtain ⟨hmem, helig⟩ := List.mem_filter.1 (firstMin_mem hrow)
  obtain ⟨hready, -⟩ := of_decide_eq_true helig
  obtain ⟨k, hk⟩ := Table.mem_toList.1 hmem
  obtain rfl : row.taskId = k := hkey k row hk
  obtain rfl : row = r := Option.some.inj (hk.symm.trans hr)
  exact .single (.moved (rewrites_modify hr rfl) (.claimed hready hclaim) ⟨rfl, rfl, rfl, rfl⟩
    rfl rfl)

theorem unchangedSince_iff {row r : TaskRow} {owner : String} {now : ℚ} :
    unchangedSince row owner now r = true ↔ r.state = row.state ∧
      r.fencingToken = row.fencingToken ∧ r.mutationProtocol = "fenced.v2" ∧
      r.mutationSeq = row.mutationSeq ∧
      if row.claimOwner = none then r.claimOwner = none
      else r.claimOwner = some owner ∧ ∃ e ∈ r.claimExpiresAt, now < e := by
  simp [unchangedSince]

theorem setStateWrite_changes {req : StateRequest} {tid : ℕ} (hchanges : P.changes tid req)
    {row : TaskRow} (hrow : row.claimOwner = none → row.state ≠ .running) (observed : ℚ)
    (store : Store) (db : TaskDb) :
    Changes P db (setStateWrite req tid row observed store db).2.2 := by
  simp only [setStateWrite]
  split
  · exact .refl
  next tasks hcas =>
  split
  · exact .refl
  obtain ⟨r, hr, hp, rfl⟩ := Table.compareAndSet_eq_some.1 hcas
  obtain ⟨hstate, -, -, hseq, hclaim⟩ := unchangedSince_iff.1 hp
  refine .single (.moved (rewrites_modify hr rfl) (.changed hchanges fun hnone => ?_)
    ⟨rfl, hstate.symm, rfl, by simp [hseq]⟩ rfl rfl)
  split_ifs at hclaim with h
  · rw [hstate]
    exact hrow h
  · simp [hnone] at hclaim

theorem heldTask_iff {owner : String} {fence : ℕ} {row : TaskRow} :
    heldTask owner fence row = true ↔ row.state = .running ∧ row.claimOwner = some owner ∧
      row.fencingToken = fence ∧ row.mutationProtocol = "fenced.v2" := by
  simp [heldTask]

theorem renewTaskClaimToken_changes (tid fence : ℕ) (leaseSeconds now : Option ℚ)
    (clock : Readings) (store : Store) (db : TaskDb) :
    Changes P db (renewTaskClaimToken tid fence leaseSeconds now clock store db).2.2 := by
  simp only [renewTaskClaimToken]
  split
  · exact .refl
  split
  · exact .refl
  split
  · exact .refl
  split
  · exact .refl
  next tasks hcas =>
  obtain ⟨r, hr, hp, rfl⟩ := Table.compareAndSet_eq_some.1 hcas
  obtain ⟨hheld, -⟩ := of_decide_eq_true hp
  obtain ⟨hrun, howner, -⟩ := heldTask_iff.1 hheld
  exact .single (.renewed hrun (by simp [howner]) (rewrites_modify hr rfl) rfl rfl)

theorem reconcileOne_changes (reason : String) (now : ℚ) (count : ℕ) (store : Store)
    (db : TaskDb) (row : TaskRow) :
    Changes P db (reconcileOne reason now (count, store, db) row).2.2 := by
  simp only [reconcileOne]
  split
  · exact .refl
  next tasks hcas =>
  obtain ⟨r, hr, hp, rfl⟩ := Table.compareAndSet_eq_some.1 hcas
  obtain ⟨hexpired, -, -, hseq⟩ := of_decide_eq_true hp
  have hrun : r.state = .running := (of_decide_eq_true hexpired).1
  exact .single (.moved (rewrites_modify hr rfl) (.reaped hexpired)
    ⟨rfl, hrun.symm, rfl, by simp [hseq]⟩ rfl rfl)

theorem reconcile_foldl_changes (reason : String) (now : ℚ) (rows : List TaskRow)
    (acc : ℕ × Store × TaskDb) :
    Changes P acc.2.2 (rows.foldl (reconcileOne reason now) acc).2.2 := by
  induction rows generalizing acc with
  | nil => exact .refl
  | cons row rows ih =>
    exact (reconcileOne_changes reason now acc.1 acc.2.1 acc.2.2 row).trans (ih _)

theorem reconcileOrphanRunning_changes (reason : String) (now : Option ℚ) (clock : Readings)
    (store : Store) (db : TaskDb) :
    Changes P db (reconcileOrphanRunning reason now clock store db).2.2 :=
  reconcile_foldl_changes _ _ _ (0, _, db)

/-- The rows that the plan still has to skip are waiting and unclaimed. -/
theorem checkEntries_due {sha256 : String → String} {entries : List DispositionEntry}
    {applied : ℕ} {due : List (TaskRow × DispositionEntry)}
    (h : checkEntries sha256 db entries = .ok (applied, due)) :
    ∀ d ∈ due, d.1.state = .queued ∨ d.1.state = .deferred := by
  induction entries generalizing applied due with
  | nil =>
    obtain ⟨-, rfl⟩ : 0 = applied ∧ [] = due := by simpa [checkEntries] using h
    simp
  | cons entry rest ih =>
    simp only [checkEntries] at h
    split at h
    · cases h
    · cases hrest : checkEntries sha256 db rest with
      | error e => simp [hrest, Except.map] at h
      | ok r =>
        obtain ⟨-, rfl⟩ : r.1 + 1 = applied ∧ r.2 = due := by
          simpa [hrest, Except.map] using h
        exact ih hrest
    · next row hentry =>
      cases hrest : checkEntries sha256 db rest with
      | error e => simp [hrest, Except.map] at h
      | ok r =>
        obtain ⟨-, rfl⟩ : r.1 = applied ∧ (row, entry) :: r.2 = due := by
          simpa [hrest, Except.map] using h
        intro d hd
        rcases List.mem_cons.1 hd with rfl | hd
        · unfold checkEntry at hentry
          split at hentry
          · cases hentry
          simp only at hentry
          split_ifs at hentry with _ _ hdue
          obtain rfl := EntryCheck.due.inj hentry
          exact hdue.2.1
        · exact ih hrest d hd

theorem applyEntries_changes {owner : String} {now : ℚ}
    {due : List (TaskRow × DispositionEntry)}
    (hdue : ∀ d ∈ due, d.1.state = .queued ∨ d.1.state = .deferred)
    (h : applyEntries owner now due db = .ok db') : Changes P db db' := by
  induction due generalizing db with
  | nil =>
    obtain rfl : db = db' := by simpa [applyEntries] using h
    exact .refl
  | cons d rest ih =>
    obtain ⟨row, entry⟩ := d
    simp only [applyEntries] at h
    split at h
    · cases h
    next tasks hcas =>
    obtain ⟨r, hr, hp, rfl⟩ := Table.compareAndSet_eq_some.1 hcas
    obtain ⟨hstate, -, -, hseq, hclaim⟩ := of_decide_eq_true hp
    have hwait := hdue (row, entry) (by simp)
    refine .head ?_ (ih (fun d hd => hdue d (by simp [hd])) h)
    exact .moved (rewrites_modify hr rfl) (.skipped (by rwa [hstate]) hclaim)
      ⟨rfl, hstate.symm, rfl, by simp [hseq]⟩ rfl rfl

theorem applyDispositionPlan_changes (sha256 : String → String)
    (entries : List DispositionEntry) (now : Option ℚ) (observed : ℚ) (store : Store)
    (db : TaskDb) :
    Changes P db (applyDispositionPlan sha256 entries now observed store db).2.2 := by
  simp only [applyDispositionPlan]
  split
  · exact .refl
  next applied due hcheck =>
  split
  · exact .refl
  split
  · exact .refl
  next db' happly => exact applyEntries_changes (checkEntries_due hcheck) happly

theorem liveClaim_iff {tid : ℕ} {store : Store} {now : ℚ} {row : TaskRow} :
    liveClaim tid store now row = true ↔ row.state = .running ∧
      row.claimOwner.getD "" = store.ownerId ∧ store.claims tid = some row.fencingToken ∧
      now < row.claimExpiresAt.getD 0 := by
  simp [liveClaim]

theorem prepareMaterialization_changes (tid : ℕ) (intent : Intent) (now : Option ℚ)
    (clock : Readings) (store : Store) (db : TaskDb)
    (hid : ∀ fence, store.claims tid = some fence →
      P.intends intent.materializationId tid fence) :
    Changes P db (prepareMaterialization tid intent now clock store db).2.2 := by
  simp only [prepareMaterialization]
  split
  · exact .refl
  next row hrow =>
  split
  · exact .refl
  next hlive =>
  split
  · split <;> exact .refl
  next hunused =>
  obtain ⟨hrun, -, hclaim, -⟩ := liveClaim_iff.1 (by simpa using hlive)
  exact .single (.prepared rfl rfl hrow hrun (hid _ hclaim) hunused rfl rfl rfl rfl)

theorem commitMaterialization_changes (tid : ℕ) (id : String) (job : ℕ) (now : Option ℚ)
    (clock : Readings) (store : Store) (db : TaskDb) :
    Changes P db (commitMaterialization tid id job now clock store db).2.2 := by
  simp only [commitMaterialization]
  split
  · next row outbox hrow hout =>
    split
    · exact .refl
    split
    · exact .refl
    next tasks hcas =>
    split
    · exact .refl
    next outbox' hack =>
    obtain ⟨r, hr, hp, rfl⟩ := Table.compareAndSet_eq_some.1 hcas
    obtain ⟨o, ho, hq, rfl⟩ := Table.compareAndSet_eq_some.1 hack
    obtain ⟨hheld, -, hseq⟩ := of_decide_eq_true hp
    obtain ⟨hrun, howner, hfence, -⟩ := heldTask_iff.1 hheld
    obtain ⟨htask, hofence, hopen⟩ := of_decide_eq_true hq
    exact .single (.bound ⟨rewrites_modify hr rfl, hrun, by simp [howner], ho, htask,
      hofence.trans hfence.symm, hopen, rfl⟩ ⟨rfl, hrun.symm, rfl, by simp [hseq]⟩ rfl)
  · exact .refl

theorem finishMaterializedTask_changes {tid : ℕ} {args : FinishArgs}
    (hargs : P.finishes tid args) (now : Option ℚ) (clock : Readings) (store : Store)
    (db : TaskDb) :
    Changes P db (finishMaterializedTask tid args now clock store db).2.2 := by
  simp only [finishMaterializedTask]
  split
  · split
    · exact .refl
    split
    · exact .refl
    next tasks hcas =>
    obtain ⟨r, hr, hp, rfl⟩ := Table.compareAndSet_eq_some.1 hcas
    obtain ⟨hparked, -, -, hseq⟩ := of_decide_eq_true hp
    have hstate : r.state = .deferred := (of_decide_eq_true hparked).1
    exact .single (.moved (rewrites_modify hr rfl) (.finished hargs hparked)
      ⟨rfl, hstate.symm, rfl, by simp [hseq]⟩ rfl rfl)
  · exact .refl

theorem markMaterializationWrite_changes (id : String) (mark : Mark) (observed : ℚ)
    (store : Store) (db : TaskDb) :
    Changes P db (markMaterializationWrite id mark observed store db).2.2 := by
  simp only [markMaterializationWrite]
  split
  · exact .refl
  next outbox hcas =>
  obtain ⟨o, ho, hp, rfl⟩ := Table.compareAndSet_eq_some.1 hcas
  exact .single (.marked rfl rfl ho (of_decide_eq_true hp).1 rfl)

theorem adoptExpiredMaterialization_changes (args : AdoptArgs)
    (compute : ComputeQueue.QueueDb) (now : Option ℚ) (clock : Readings) (store : Store)
    (db : TaskDb) :
    Changes P db (adoptExpiredMaterialization args compute now clock store db).2.2 := by
  simp only [adoptExpiredMaterialization]
  split
  · split
    · exact .refl
    split
    · exact .refl
    split
    · exact .refl
    split
    · next tasks outbox hcas hack =>
      obtain ⟨r, hr, hp, rfl⟩ := Table.compareAndSet_eq_some.1 hcas
      obtain ⟨o, ho, hq, rfl⟩ := Table.compareAndSet_eq_some.1 hack
      obtain ⟨-, hrun, howner, -, hfence, -, hseq, -⟩ := of_decide_eq_true hp
      obtain ⟨htask, hofence, hopen, -⟩ := of_decide_eq_true hq
      exact .single (.bound ⟨rewrites_modify hr rfl, hrun, howner, ho, htask,
        hofence.trans hfence.symm, hopen, rfl⟩ ⟨rfl, hrun.symm, rfl, by simp [hseq]⟩ rfl)
    · exact .refl
  · exact .refl

theorem resetClaimBudget_changes (key : String) (db : TaskDb) :
    Changes P db (resetClaimBudget key db) := .single (.charged rfl rfl rfl)

end ResearchLab.FarmTasks
