import Mathlib
import ResearchLab.Coordinator.Completions
import ResearchLab.FarmTasks.Authority

/-!
# The hand-over to the compute queue

Coordinators that prepare their intents under the ids of `_drain_run_sweep` and move no task
through `_set_state` keep tasks and intents in step: a task has at most one open intent, and a
task waits for its job only under the acknowledged intent of its own fence.
-/
namespace ResearchLab.Coordinator
open Foundation FarmTasks

/-- The task waits for its compute job. -/
def Awaits (r : TaskRow) : Prop := r.state = .deferred ∧ r.machineReason = awaitingWorker

/-- No task is created waiting for a job, and an intent has the id of its claim. -/
def drainPolicy : Policy where
  creates args := (args.state = .queued ∨ args.state = .deferred ∨ args.state = .blocked) ∧
    ¬ (args.state = .deferred ∧ args.machineReason = awaitingWorker)
  intends id tid fence := id = materializationIdOf tid fence
  changes _ _ := False
  finishes _ _ := True
  waits _ h := h.1

/-- The intent is the acknowledged one of the task's fence and job. -/
structure Binds (o : OutboxRow) (r : TaskRow) : Prop where
  fence : o.taskFencingToken = r.fencingToken
  job : o.queueJobId = r.materializedQueueJobId
  bound : ∃ job, o.queueJobId = some job

structure HandoffInv (db : TaskDb) : Prop where
  /-- The id of an intent is that of its task and fence. -/
  named : ∀ id o, db.outbox.row id = some o →
    id = materializationIdOf o.taskId o.taskFencingToken
  known : ∀ id o, db.outbox.row id = some o → (db.tasks.row o.taskId).isSome = true
  single : ∀ id₁ id₂ o₁ o₂, db.outbox.row id₁ = some o₁ → db.outbox.row id₂ = some o₂ →
    o₁.taskId = o₂.taskId → o₁.state.open = true → o₂.state.open = true → id₁ = id₂
  unique : ∀ id₁ id₂ o₁ o₂, db.outbox.row id₁ = some o₁ → db.outbox.row id₂ = some o₂ →
    o₁.taskId = o₂.taskId → o₁.state = .acknowledged → o₂.state = .acknowledged → id₁ = id₂
  /-- A task with an acknowledged intent waits under it, or has ended. -/
  settled : ∀ id o, db.outbox.row id = some o → o.state = .acknowledged →
    ∀ r, db.tasks.row o.taskId = some r →
      r.state.terminal = true ∨ (Awaits r ∧ Binds o r)
  waits : ∀ tid r, db.tasks.row tid = some r → Awaits r → r.deferredUntil = none ∧
    ∃ id o, db.outbox.row id = some o ∧ o.taskId = tid ∧ o.state = .acknowledged ∧ Binds o r

variable {db db' : TaskDb}

theorem HandoffInv.empty : HandoffInv TaskDb.empty := by
  refine ⟨?_, ?_, ?_, ?_, ?_, ?_⟩ <;> simp [TaskDb.empty]

/-- A task that is queued, running or deferred with a time has no acknowledged intent. -/
theorem HandoffInv.unacknowledged (h : HandoffInv db) {tid : ℕ} {r : TaskRow}
    (hr : db.tasks.row tid = some r) (hterm : r.state.terminal = false)
    (hawaits : ¬ (Awaits r ∧ r.deferredUntil = none)) {id : String} {o : OutboxRow}
    (ho : db.outbox.row id = some o) (htask : o.taskId = tid) : o.state ≠ .acknowledged := by
  intro hack
  rcases h.settled id o ho hack r (by rw [htask, hr]) with hend | ⟨hwait, -⟩
  · simp [hterm] at hend
  · exact hawaits ⟨hwait, (h.waits tid r hr hwait).1⟩

/-- A change of a task that leaves the intents alone: it may not start waiting, and it may
stop waiting only where the intents do not speak of it. -/
theorem HandoffInv.rewrite (h : HandoffInv db) {tid : ℕ} {r r' : TaskRow}
    (hw : Rewrites db db' tid r r') (hout : db'.outbox = db.outbox)
    (hsettled : r'.state.terminal = true ∨ (r.state.terminal = false ∧
      ¬ (Awaits r ∧ r.deferredUntil = none)) ∨ (r'.state = r.state ∧
        r'.machineReason = r.machineReason ∧ r'.fencingToken = r.fencingToken ∧
        r'.materializedQueueJobId = r.materializedQueueJobId))
    (hwaits : Awaits r' → Awaits r ∧ r'.deferredUntil = r.deferredUntil ∧
      r'.fencingToken = r.fencingToken ∧
      r'.materializedQueueJobId = r.materializedQueueJobId) : HandoffInv db' := by
  refine ⟨?_, fun id o ho => ?_, ?_, ?_, fun id o ho hack s hs => ?_, fun k s hs hwait => ?_⟩
  · rw [hout]
    exact h.named
  · rw [hout] at ho
    rw [hw.rows]
    split_ifs
    · rfl
    · exact h.known id o ho
  · rw [hout]
    exact h.single
  · rw [hout]
    exact h.unique
  · rw [hout] at ho
    rw [hw.rows] at hs
    split_ifs at hs with hk
    · obtain rfl := Option.some.inj hs
      rcases hsettled with hend | ⟨hterm, hnot⟩ | ⟨hstate, hreason, hfence, hjob⟩
      · exact Or.inl hend
      · exact absurd hack (h.unacknowledged hw.present hterm hnot ho hk)
      · rcases h.settled id o ho hack r (by rw [hk, hw.present]) with hend | ⟨hwait, hbinds⟩
        · exact Or.inl (by rwa [hstate])
        · exact Or.inr ⟨⟨hstate.trans hwait.1, hreason.trans hwait.2⟩,
            hbinds.fence.trans hfence.symm, hbinds.job.trans hjob.symm, hbinds.bound⟩
    · exact h.settled id o ho hack s hs
  · rw [hw.rows] at hs
    rw [hout]
    split_ifs at hs with hk
    · obtain rfl := Option.some.inj hs
      obtain ⟨hold, huntil, hfence, hjob⟩ := hwaits hwait
      obtain ⟨hnone, id, o, ho, htask, hack, hbinds⟩ := h.waits tid r hw.present hold
      exact ⟨huntil.trans hnone, id, o, ho, htask.trans hk.symm, hack,
        hbinds.fence.trans hfence.symm, hbinds.job.trans hjob.symm, hbinds.bound⟩
    · exact h.waits k s hs hwait

theorem HandoffInv.move (h : HandoffInv db) {tid : ℕ} {r r' : TaskRow}
    (hw : Rewrites db db' tid r r') (hout : db'.outbox = db.outbox)
    (hm : TaskMove drainPolicy tid r r') : HandoffInv db' := by
  cases hm with
  | claimed ready unclaimed =>
    refine h.rewrite hw hout (Or.inr (Or.inl ?_)) (by simp [Awaits, claimedTask])
    rcases ready with hq | ⟨hd, u, hu, -⟩
    · simp [hq, Awaits, TaskState.terminal]
    · refine ⟨by simp [hd, TaskState.terminal], fun hcon => ?_⟩
      simp [hcon.2] at hu
  | changed changes => exact changes.elim
  | reaped expired =>
    have hrun := (of_decide_eq_true expired).1
    refine h.rewrite hw hout (Or.inr (Or.inl ?_)) (by simp [Awaits, reapedTask])
    simp [hrun, Awaits, TaskState.terminal]
  | skipped =>
    exact h.rewrite hw hout (Or.inl (by simp [skippedTask, TaskState.terminal]))
      (by simp [Awaits, skippedTask])
  | @finished args now _ waiting =>
    have hne : args.outcome.target ≠ .deferred := by
      cases args.outcome <;> simp [QueueOutcome.target]
    refine h.rewrite hw hout (Or.inl ?_) (by simp [Awaits, finishedTask, hne])
    cases h : args.outcome <;> simp [finishedTask, h, QueueOutcome.target, TaskState.terminal]

theorem HandoffInv.insert (h : HandoffInv db) {args : EnqueueArgs} {tid : ℕ} {now : ℚ}
    (creates : drainPolicy.creates args) (absent : db.tasks.row tid = none)
    (rows : ∀ k, db'.tasks.row k =
      if k = tid then some (newTask args tid now) else db.tasks.row k)
    (hout : db'.outbox = db.outbox) : HandoffInv db' := by
  have hother : ∀ {id o}, db.outbox.row id = some o → o.taskId ≠ tid := by
    rintro id o ho rfl
    simpa [absent] using h.known id o ho
  refine ⟨?_, fun id o ho => ?_, ?_, ?_, fun id o ho hack s hs => ?_, fun k s hs hwait => ?_⟩
  · rw [hout]
    exact h.named
  · rw [hout] at ho
    rw [rows, if_neg (hother ho)]
    exact h.known id o ho
  · rw [hout]
    exact h.single
  · rw [hout]
    exact h.unique
  · rw [hout] at ho
    rw [rows, if_neg (hother ho)] at hs
    exact h.settled id o ho hack s hs
  · rw [rows] at hs
    rw [hout]
    split_ifs at hs with hk
    · obtain rfl := Option.some.inj hs
      exact absurd hwait creates.2
    · exact h.waits k s hs hwait

/-! ## Changes of the intents -/

theorem open_ne_acknowledged {state : OutboxState} (h : state.open = true) :
    state ≠ .acknowledged := by
  rintro rfl
  simp [OutboxState.open] at h

/-- What a prepared, marked or superseded intent keeps. -/
structure SameIntent (o o' : OutboxRow) : Prop where
  task : o'.taskId = o.taskId
  fence : o'.taskFencingToken = o.taskFencingToken
  opened : o'.state.open = true → o.state.open = true
  kept : o.state = .acknowledged → o' = o
  acknowledged : o'.state = .acknowledged → o.state = .acknowledged

theorem SameIntent.refl (o : OutboxRow) : SameIntent o o := ⟨rfl, rfl, id, fun _ => rfl, id⟩

theorem supersede_row (tid fence : ℕ) (now : ℚ) {outbox : Table String OutboxRow} {id : String}
    {o' : OutboxRow} (h : (supersede tid fence now outbox).row id = some o') :
    ∃ o, outbox.row id = some o ∧ SameIntent o o' ∧
      (o'.taskId = tid → o'.state.open = true → o'.taskFencingToken = fence) := by
  obtain ⟨o, ho, rfl⟩ := Option.map_eq_some_iff.1 h
  refine ⟨o, ho, ?_⟩
  split_ifs with hp
  · obtain ⟨-, hopen, -⟩ := of_decide_eq_true hp
    exact ⟨⟨rfl, rfl, by simp [OutboxState.open], fun hack => absurd hack
      (open_ne_acknowledged hopen), by simp⟩, by simp [OutboxState.open]⟩
  · refine ⟨.refl o, fun htask hopen => ?_⟩
    by_contra hfence
    simp [htask, hopen, hfence] at hp

/-- Intents change among themselves, and the tasks stay as they are. -/
theorem HandoffInv.remark (h : HandoffInv db) (htasks : db'.tasks = db.tasks)
    (hback : ∀ id o', db'.outbox.row id = some o' →
      ∃ o, db.outbox.row id = some o ∧ SameIntent o o')
    (hforth : ∀ id o, db.outbox.row id = some o → ∃ o', db'.outbox.row id = some o') :
    HandoffInv db' := by
  refine ⟨fun id o' ho' => ?_, fun id o' ho' => ?_, fun id₁ id₂ o₁ o₂ h₁ h₂ htask hs₁ hs₂ => ?_,
    fun id₁ id₂ o₁ o₂ h₁ h₂ htask hs₁ hs₂ => ?_, fun id o' ho' hack r hr => ?_,
    fun tid r hr hwait => ?_⟩
  · obtain ⟨o, ho, hsame⟩ := hback id o' ho'
    rw [hsame.task, hsame.fence]
    exact h.named id o ho
  · obtain ⟨o, ho, hsame⟩ := hback id o' ho'
    rw [htasks, hsame.task]
    exact h.known id o ho
  · obtain ⟨p₁, hp₁, same₁⟩ := hback id₁ o₁ h₁
    obtain ⟨p₂, hp₂, same₂⟩ := hback id₂ o₂ h₂
    exact h.single id₁ id₂ p₁ p₂ hp₁ hp₂ (same₁.task.symm.trans (htask.trans same₂.task))
      (same₁.opened hs₁) (same₂.opened hs₂)
  · obtain ⟨p₁, hp₁, same₁⟩ := hback id₁ o₁ h₁
    obtain ⟨p₂, hp₂, same₂⟩ := hback id₂ o₂ h₂
    exact h.unique id₁ id₂ p₁ p₂ hp₁ hp₂ (same₁.task.symm.trans (htask.trans same₂.task))
      (same₁.acknowledged hs₁) (same₂.acknowledged hs₂)
  · obtain ⟨o, ho, hsame⟩ := hback id o' ho'
    obtain rfl := hsame.kept (hsame.acknowledged hack)
    exact h.settled id o' ho hack r (htasks ▸ hr)
  · obtain ⟨hnone, id, o, ho, htask, hack, hbinds⟩ := h.waits tid r (htasks ▸ hr) hwait
    obtain ⟨o', ho'⟩ := hforth id o ho
    obtain ⟨p, hp, hsame⟩ := hback id o' ho'
    obtain rfl : p = o := Option.some.inj (hp.symm.trans ho)
    obtain rfl := hsame.kept hack
    exact ⟨hnone, id, o', ho', htask, hack, hbinds⟩

/-- A new intent, the only open one of its running task. -/
theorem HandoffInv.prepare (h : HandoffInv db) {tid : ℕ} {r : TaskRow} {id : String}
    {o : OutboxRow} (htasks : db'.tasks = db.tasks) (present : db.tasks.row tid = some r)
    (unused : db.outbox.row id = none)
    (named : id = materializationIdOf tid r.fencingToken) (task : o.taskId = tid)
    (fence : o.taskFencingToken = r.fencingToken) (pending : o.state = .pending)
    (closed : ∀ id' p, db.outbox.row id' = some p → p.taskId = tid → p.state.open = false)
    (hout : db'.outbox = db.outbox.insert id o) : HandoffInv db' := by
  have hback : ∀ {id' p}, db'.outbox.row id' = some p →
      (id' = id ∧ p = o) ∨ db.outbox.row id' = some p := by
    intro id' p hp
    rw [hout, Table.insert_row unused] at hp
    split_ifs at hp with hid
    · exact Or.inl ⟨hid, (Option.some.inj hp).symm⟩
    · exact Or.inr hp
  refine ⟨fun id' p hp => ?_, fun id' p hp => ?_, fun id₁ id₂ p₁ p₂ h₁ h₂ htask hs₁ hs₂ => ?_,
    fun id₁ id₂ p₁ p₂ h₁ h₂ htask hs₁ hs₂ => ?_, fun id' p hp hack s hs => ?_,
    fun k s hs hwait => ?_⟩
  · rcases hback hp with ⟨rfl, rfl⟩ | hp
    · rw [task, fence, named]
    · exact h.named id' p hp
  · rw [htasks]
    rcases hback hp with ⟨rfl, rfl⟩ | hp
    · simp [task, present]
    · exact h.known id' p hp
  · rcases hback h₁ with ⟨rfl, rfl⟩ | h₁
    · rcases hback h₂ with ⟨rfl, rfl⟩ | h₂
      · rfl
      · simp [closed id₂ p₂ h₂ (htask.symm.trans task)] at hs₂
    · rcases hback h₂ with ⟨rfl, rfl⟩ | h₂
      · simp [closed id₁ p₁ h₁ (htask.trans task)] at hs₁
      · exact h.single id₁ id₂ p₁ p₂ h₁ h₂ htask hs₁ hs₂
  · rcases hback h₁ with ⟨rfl, rfl⟩ | h₁
    · simp [pending] at hs₁
    · rcases hback h₂ with ⟨rfl, rfl⟩ | h₂
      · simp [pending] at hs₂
      · exact h.unique id₁ id₂ p₁ p₂ h₁ h₂ htask hs₁ hs₂
  · rcases hback hp with ⟨rfl, rfl⟩ | hp
    · simp [pending] at hack
    · exact h.settled id' p hp hack s (htasks ▸ hs)
  · obtain ⟨hnone, id', p, hp, hrest⟩ := h.waits k s (htasks ▸ hs) hwait
    exact ⟨hnone, id', p, hout ▸ Table.insert_row_some hp, hrest⟩

/-- The running task and its open intent are bound. -/
theorem HandoffInv.bind (h : HandoffInv db) {tid : ℕ} {r : TaskRow} {id : String}
    {o : OutboxRow} {job : ℕ} {now : ℚ} (hp : Parks db db' tid r id o job now) :
    HandoffInv db' := by
  have hnone : ∀ {id' p}, db.outbox.row id' = some p → p.taskId = tid →
      p.state ≠ .acknowledged := fun hp' htask =>
    h.unacknowledged hp.rewrites.present (by simp [hp.running, TaskState.terminal])
      (by simp [Awaits, hp.running]) hp' htask
  have hback : ∀ {id' p}, db'.outbox.row id' = some p →
      (id' = id ∧ p = acknowledge job now o) ∨ (id' ≠ id ∧ db.outbox.row id' = some p) := by
    intro id' p hrow
    rw [hp.outbox, Table.modify_row, hp.intent] at hrow
    split_ifs at hrow with hid
    · exact Or.inl ⟨hid, (Option.some.inj hrow).symm⟩
    · exact Or.inr ⟨hid, hrow⟩
  have hnew : db'.outbox.row id = some (acknowledge job now o) := by
    simp [hp.outbox, hp.intent]
  have hrow : ∀ {k s}, db'.tasks.row k = some s →
      (k = tid ∧ s = parkedTask job now r) ∨ (k ≠ tid ∧ db.tasks.row k = some s) := by
    intro k s hs
    rw [hp.rewrites.rows] at hs
    split_ifs at hs with hk
    · exact Or.inl ⟨hk, (Option.some.inj hs).symm⟩
    · exact Or.inr ⟨hk, hs⟩
  have hbinds : Binds (acknowledge job now o) (parkedTask job now r) :=
    ⟨hp.fence, rfl, job, rfl⟩
  refine ⟨fun id' p hp' => ?_, fun id' p hp' => ?_, fun id₁ id₂ p₁ p₂ h₁ h₂ htask hs₁ hs₂ => ?_,
    fun id₁ id₂ p₁ p₂ h₁ h₂ htask hs₁ hs₂ => ?_, fun id' p hp' hack s hs => ?_,
    fun k s hs hwait => ?_⟩
  · rcases hback hp' with ⟨rfl, rfl⟩ | ⟨-, hp'⟩
    · exact h.named id' o hp.intent
    · exact h.named id' p hp'
  · rw [hp.rewrites.rows]
    split_ifs with hk
    · rfl
    · rcases hback hp' with ⟨rfl, rfl⟩ | ⟨-, hp'⟩
      · exact absurd hp.task hk
      · exact h.known id' p hp'
  · rcases hback h₁ with ⟨rfl, rfl⟩ | ⟨-, h₁⟩
    · simp [acknowledge, OutboxState.open] at hs₁
    · rcases hback h₂ with ⟨rfl, rfl⟩ | ⟨-, h₂⟩
      · simp [acknowledge, OutboxState.open] at hs₂
      · exact h.single id₁ id₂ p₁ p₂ h₁ h₂ htask hs₁ hs₂
  · rcases hback h₁ with ⟨rfl, rfl⟩ | ⟨-, h₁⟩
    · rcases hback h₂ with ⟨rfl, rfl⟩ | ⟨-, h₂⟩
      · rfl
      · exact absurd hs₂ (hnone h₂ (htask.symm.trans hp.task))
    · rcases hback h₂ with ⟨rfl, rfl⟩ | ⟨-, h₂⟩
      · exact absurd hs₁ (hnone h₁ (htask.trans hp.task))
      · exact h.unique id₁ id₂ p₁ p₂ h₁ h₂ htask hs₁ hs₂
  · rcases hback hp' with ⟨rfl, rfl⟩ | ⟨-, hp'⟩
    · rcases hrow hs with ⟨-, rfl⟩ | ⟨hne, -⟩
      · exact Or.inr ⟨⟨rfl, rfl⟩, hbinds⟩
      · exact absurd hp.task hne
    · rcases hrow hs with ⟨htask, rfl⟩ | ⟨-, hs⟩
      · exact absurd hack (hnone hp' htask)
      · exact h.settled id' p hp' hack s hs
  · rcases hrow hs with ⟨rfl, rfl⟩ | ⟨hne, hs⟩
    · exact ⟨rfl, id, _, hnew, hp.task, rfl, hbinds⟩
    · obtain ⟨hnone', id', p, hp', htask, hrest⟩ := h.waits k s hs hwait
      have hid : id' ≠ id := by
        rintro rfl
        obtain rfl := Option.some.inj (hp'.symm.trans hp.intent)
        exact hne (htask.symm.trans hp.task)
      exact ⟨hnone', id', p, by rw [hp.outbox, Table.modify_row_of_ne _ hid, hp'], htask, hrest⟩

theorem supersede_none {tid fence : ℕ} {now : ℚ} {outbox : Table String OutboxRow} {id : String}
    (h : outbox.row id = none) : (supersede tid fence now outbox).row id = none := by
  simp [supersede, h]

theorem Mark.apply_same (mark : Mark) (now : ℚ) {o : OutboxRow} (hopen : o.state.open = true) :
    SameIntent o (mark.apply now o) := by
  have hack : o.state = .acknowledged → mark.apply now o = o := fun h =>
    absurd h (open_ne_acknowledged hopen)
  cases mark with
  | dispatched job => exact ⟨rfl, rfl, fun _ => hopen, hack, by simp [Mark.apply]⟩
  | ambiguous => exact ⟨rfl, rfl, fun _ => hopen, hack, by simp [Mark.apply]⟩

/-- The step lemma of the hand-over. -/
theorem HandoffInv.change (h : HandoffInv db) (hc : Change drainPolicy db db') :
    HandoffInv db' := by
  cases hc with
  | inserted creates absent rows _ outbox => exact h.insert creates absent rows outbox
  | touched rewrites _ outbox =>
    exact h.rewrite rewrites outbox (Or.inr (Or.inr ⟨rfl, rfl, rfl, rfl⟩))
      fun hwait => ⟨hwait, rfl, rfl, rfl⟩
  | renewed _ _ rewrites _ outbox =>
    exact h.rewrite rewrites outbox (Or.inr (Or.inr ⟨rfl, rfl, rfl, rfl⟩))
      fun hwait => ⟨hwait, rfl, rfl, rfl⟩
  | moved rewrites move _ _ outbox => exact h.move rewrites outbox move
  | bound parks => exact h.bind parks
  | @prepared tid r id o now tasks _ present _ intends unused task fence pending outbox =>
    let mid : TaskDb := { db with outbox := supersede tid r.fencingToken now db.outbox }
    have hmid : HandoffInv mid := h.remark rfl
      (fun id o' ho' => by
        obtain ⟨o, ho, hsame, -⟩ := supersede_row _ _ _ ho'
        exact ⟨o, ho, hsame⟩)
      (fun id o ho => by simp [mid, supersede, ho])
    refine hmid.prepare tasks present (supersede_none unused) intends task fence pending ?_ outbox
    intro id' p hp htask
    obtain ⟨o', ho', hsame, hfence⟩ := supersede_row _ _ _ hp
    by_contra hopen
    -- An open intent of the task has its fence, hence the very id that is unused.
    have hid := hmid.named id' p hp
    rw [htask, hfence htask (by simpa using hopen), ← intends] at hid
    subst hid
    simp [unused] at ho'
  | @marked id o mark now tasks _ intent opened outbox =>
    refine h.remark tasks (fun id' p hp => ?_) (fun id' p hp => ?_)
    · rw [outbox, Table.modify_row, intent] at hp
      split_ifs at hp with hid
      · obtain rfl := Option.some.inj hp
        exact ⟨o, hid ▸ intent, Mark.apply_same mark now opened⟩
      · exact ⟨p, hp, .refl p⟩
    · rw [outbox, Table.modify_row, intent]
      split_ifs
      · exact ⟨_, rfl⟩
      · exact ⟨p, hp⟩
  | charged tasks _ outbox =>
    exact h.remark tasks (fun id p hp => ⟨p, outbox ▸ hp, .refl p⟩)
      fun id p hp => ⟨p, outbox ▸ hp⟩

theorem HandoffInv.changes (h : HandoffInv db) (hc : Changes drainPolicy db db') :
    HandoffInv db' := by
  induction hc with
  | refl => exact h
  | tail _ hstep ih => exact ih.change hstep

/-- An acknowledged intent is never written again. -/
theorem Change.acknowledged {P : Policy} (hc : Change P db db') {id : String} {o : OutboxRow}
    (ho : db.outbox.row id = some o) (hack : o.state = .acknowledged) :
    db'.outbox.row id = some o := by
  have hopen : ∀ {id' p}, db.outbox.row id' = some p → p.state.open = true → id ≠ id' := by
    rintro id' p hp hopen rfl
    obtain rfl := Option.some.inj (hp.symm.trans ho)
    exact open_ne_acknowledged hopen hack
  cases hc with
  | inserted _ _ _ _ outbox => rw [outbox, ho]
  | touched _ _ outbox => rw [outbox, ho]
  | renewed _ _ _ _ outbox => rw [outbox, ho]
  | moved _ _ _ _ outbox => rw [outbox, ho]
  | bound parks =>
    rw [parks.outbox, Table.modify_row_of_ne _ (hopen parks.intent parks.opened), ho]
  | prepared _ _ _ _ _ _ _ _ _ outbox =>
    rw [outbox]
    refine Table.insert_row_some ?_
    simp [supersede, ho, hack, OutboxState.open]
  | marked _ _ intent opened outbox =>
    rw [outbox, Table.modify_row_of_ne _ (hopen intent opened), ho]
  | charged _ _ outbox => rw [outbox, ho]

theorem Changes.acknowledged {P : Policy} (hc : Changes P db db') {id : String} {o : OutboxRow}
    (ho : db.outbox.row id = some o) (hack : o.state = .acknowledged) :
    db'.outbox.row id = some o := by
  induction hc with
  | refl => exact ho
  | tail _ hstep ih => exact Change.acknowledged hstep ih hack

/-! ## What the calls see -/

theorem mem_waitingTasks {state : TaskState} {task : TaskRow} :
    task ∈ waitingTasks state db ↔ (∃ k, db.tasks.row k = some task) ∧ task.state = state ∧
      task.spec.taskType = "run_sweep" ∧ task.machineReason = awaitingWorker := by
  simp [waitingTasks, Table.mem_toList]

/-- The intent of a task that waited when it was read is found, also later. -/
theorem lookIntent_found (hinv : HandoffInv db') {task : TaskRow} {id : String} {o : OutboxRow}
    (ho : db'.outbox.row id = some o) (htask : o.taskId = task.taskId)
    (hack : o.state = .acknowledged) (hbinds : Binds o task) {job : ℕ}
    (hjob : task.materializedQueueJobId = some job) (hpos : job ≠ 0) :
    lookIntent task db' = .found ⟨task, job, id, o⟩ := by
  have hmem : (id, o) ∈ db'.outbox.entries.filter fun e =>
      e.2.taskId = task.taskId ∧ e.2.queueJobId = some job ∧ e.2.state = .acknowledged := by
    simp [Table.mem_entries, ho, htask, hbinds.job, hjob, hack]
  have hfound : acknowledgedIntent task.taskId job db' = some (id, o) := by
    cases hmin : acknowledgedIntent task.taskId job db' with
    | none =>
      rw [firstMin_eq_none.1 hmin] at hmem
      cases hmem
    | some e =>
      obtain ⟨id', p⟩ := e
      obtain ⟨hp, hcond⟩ := List.mem_filter.1 (firstMin_mem hmin)
      obtain ⟨hptask, -, hpack⟩ := of_decide_eq_true hcond
      have hp := Table.mem_entries.1 hp
      obtain rfl := hinv.unique id' id p o hp ho (hptask.trans htask.symm) hpack hack
      obtain rfl := Option.some.inj (hp.symm.trans ho)
      rfl
  have hfilter : task.materializedQueueJobId.filter (· ≠ 0) = some job := by simp [hjob, hpos]
  simp only [lookIntent, hfilter, hfound, hbinds.fence, ne_eq, not_true_eq_false, if_false]

theorem lookIntent_ne_lost (hdb : DbInv db) (hinv : HandoffInv db) (hinv' : HandoffInv db')
    (hkept : ∀ id o, db.outbox.row id = some o → o.state = .acknowledged →
      db'.outbox.row id = some o) {task : TaskRow}
    (htask : task ∈ waitingTasks .deferred db ++ waitingTasks .running db) :
    lookIntent task db' ≠ .fatal lostBinding := by
  rcases List.mem_append.1 htask with hparked | hlegacy
  · obtain ⟨⟨k, hk⟩, hstate, -, hreason⟩ := mem_waitingTasks.1 hparked
    obtain ⟨-, id, o, ho, hotask, hack, hbinds⟩ := hinv.waits k task hk ⟨hstate, hreason⟩
    obtain ⟨job, hjob⟩ := hbinds.bound
    have hjob := hbinds.job.symm.trans hjob
    by_cases hpos : job = 0
    · have hnone : task.materializedQueueJobId.filter (· ≠ 0) = none := by simp [hjob, hpos]
      simp only [lookIntent, hnone, refuse, isParked, hstate, decide_true, if_true, ne_eq,
        Look.fatal.injEq]
      decide
    · have hid : task.taskId = k := hdb.keyed k task hk
      rw [lookIntent_found hinv' (hkept id o ho hack) (hotask.trans hid.symm) hack hbinds hjob
        hpos]
      simp
  · obtain ⟨-, hstate, -⟩ := mem_waitingTasks.1 hlegacy
    have hpassed : ∀ message, (refuse task message : Look Binding) = .passed := by
      simp [refuse, isParked, hstate]
    simp only [lookIntent, hpassed]
    split
    · simp
    · split
      · simp
      · split_ifs <;> simp

/-- A claim takes no task that waits for its job. -/
theorem claimNextTask_passes (hdb : DbInv db) (hinv : HandoffInv db) {tid : ℕ} {r : TaskRow}
    (hr : db.tasks.row tid = some r) (hwait : Awaits r) (args : ClaimArgs) (clock : Readings)
    (store : Store) :
    (claimNextTask args clock store db).2.2.tasks.row tid = some r ∧
      ∀ row, (claimNextTask args clock store db).1 = .ok (some row) → row.taskId ≠ tid := by
  simp only [claimNextTask]
  split
  · exact ⟨hr, by simp⟩
  split
  · exact ⟨hr, by simp⟩
  split
  · exact ⟨hr, by simp⟩
  next chosen hchosen =>
  split
  · exact ⟨hr, by simp⟩
  next tasks hcas =>
  obtain ⟨row, hrow, -, rfl⟩ := Table.compareAndSet_eq_some.1 hcas
  obtain ⟨hmem, helig⟩ := List.mem_filter.1 (firstMin_mem hchosen)
  obtain ⟨hready, -⟩ := of_decide_eq_true helig
  obtain ⟨k, hk⟩ := Table.mem_toList.1 hmem
  obtain rfl : chosen.taskId = k := hdb.keyed k chosen hk
  have hne : tid ≠ chosen.taskId := by
    rintro rfl
    obtain rfl := Option.some.inj (hk.symm.trans hr)
    rcases hready with hq | ⟨-, u, hu, -⟩
    · simp [hwait.1] at hq
    · simp [(hinv.waits _ chosen hk hwait).1] at hu
  refine ⟨(Table.modify_row_of_ne _ hne _).trans hr, fun row' hrow' hid => hne ?_⟩
  simp only [chargeLanes, recordTransition, Table.modify_row_self, hrow, Option.map_some,
    Except.ok.injEq, Option.some.injEq] at hrow'
  subst hrow'
  exact hid.symm.trans (hdb.keyed _ row hrow)

/-! ## Every run -/

theorem handoff_of_reachable {s : TaskFarm} (hs : (taskFarm drainPolicy).Reachable s) :
    HandoffInv s.db := by
  refine hs.invariant (P := fun s => HandoffInv s.db) ?_ fun s a hr h ha => ?_
  · rintro s ⟨hdb, -⟩
    exact hdb ▸ .empty
  · exact h.changes ((inv_of_reachable hr).step_changes ha (q := fun _ _ => False) fun tid req hw => by
      obtain ⟨w, observed, row, -, hpending⟩ := hw
      exact (inv_of_reachable hr).allowed w _ tid req hpending rfl)

theorem acknowledged_run {s t : TaskFarm} {as : List Action}
    (hst : (taskFarm drainPolicy).Steps s as t) (hs : (taskFarm drainPolicy).Reachable s)
    {id : String} {o : OutboxRow} (ho : s.db.outbox.row id = some o)
    (hack : o.state = .acknowledged) : t.db.outbox.row id = some o :=
  hst.preserves (P := fun t => t.db.outbox.row id = some o)
    (fun _ _ hr ho ha => Changes.acknowledged
      ((inv_of_reachable hr).step_changes ha (q := fun _ _ => True) fun _ _ _ => trivial) ho hack)
    hs ho

theorem handoff_stays_consistent {s : TaskFarm} (hs : (taskFarm drainPolicy).Reachable s) :
    (∀ id₁ id₂ o₁ o₂, s.db.outbox.row id₁ = some o₁ → s.db.outbox.row id₂ = some o₂ →
      o₁.taskId = o₂.taskId → o₁.state.open = true → o₂.state.open = true → id₁ = id₂) ∧
    (∀ as t, (taskFarm drainPolicy).Steps s as t → ∀ id o, s.db.outbox.row id = some o →
      o.state = .acknowledged → t.db.outbox.row id = some o) ∧
    (∀ tid r, s.db.tasks.row tid = some r → Awaits r → ∃ id o job,
      s.db.outbox.row id = some o ∧ o.taskId = tid ∧ o.state = .acknowledged ∧
      o.taskFencingToken = r.fencingToken ∧ o.queueJobId = some job ∧
      r.materializedQueueJobId = some job) ∧
    (∀ as t, (taskFarm drainPolicy).Steps s as t →
      ∀ task ∈ waitingTasks .deferred s.db ++ waitingTasks .running s.db,
        lookIntent task t.db ≠ .fatal lostBinding) ∧
    (∀ tid r, s.db.tasks.row tid = some r → Awaits r → ∀ args clock store,
      (claimNextTask args clock store s.db).2.2.tasks.row tid = some r ∧
      ∀ row, (claimNextTask args clock store s.db).1 = .ok (some row) → row.taskId ≠ tid) := by
  have hinv := handoff_of_reachable hs
  have hdb := (inv_of_reachable hs).db
  refine ⟨hinv.single, fun as t hst id o => acknowledged_run hst hs, fun tid r hr hwait => ?_,
    fun as t hst task htask => ?_, fun tid r hr hwait args clock store =>
      claimNextTask_passes hdb hinv hr hwait args clock store⟩
  · obtain ⟨-, id, o, ho, htask, hack, hbinds⟩ := hinv.waits tid r hr hwait
    obtain ⟨job, hjob⟩ := hbinds.bound
    exact ⟨id, o, job, ho, htask, hack, hbinds.fence, hjob, hbinds.job.symm.trans hjob⟩
  · exact lookIntent_ne_lost hdb hinv (handoff_of_reachable (hst.reachable hs))
      (fun id o => acknowledged_run hst hs) htask

/-! ## A task that waits for its job -/

def sweepIntent : Intent :=
  ⟨materializationIdOf 1 1, "sweep.json", "sha256:0", "\x7b\x7d", 100⟩

/-- Worker 0 claims the sweep, prepares its intent and binds it to job 7. -/
def parkedRun : List Action :=
  [.enqueue sweepTask 100, .claim 0 { now := some 100 } ⟨100, 100⟩,
    .prepare 0 1 sweepIntent (some 101) ⟨101, 101⟩,
    .mark 0 (materializationIdOf 1 1) (.dispatched 7) (some 101) 101, .resume 0 101,
    .commit 0 1 (materializationIdOf 1 1) 7 (some 101) ⟨101, 101⟩]

def parkedFarm : TaskFarm := (taskFarm drainPolicy).run twoWorkers parkedRun

theorem parkedFarm_reachable : (taskFarm drainPolicy).Reachable parkedFarm := by
  refine Machine.reachable_run parkedRun ⟨rfl, fun _ => rfl⟩ ⟨⟨by simp [Action.caller], ?_⟩,
    ⟨by simp [Action.caller]; rfl, trivial⟩, ⟨by simp [Action.caller]; rfl, ?_⟩,
    ⟨by simp [Action.caller]; rfl, trivial⟩, ⟨by simp [Action.caller], trivial⟩,
    ⟨fun w hw => ?_, trivial⟩, trivial⟩
  · exact ⟨Or.inl rfl, by simp [sweepTask]⟩
  · intro fence hfence
    have hone : (((taskFarm drainPolicy).run twoWorkers (parkedRun.take 2)).stores 0).claims 1 =
        some 1 := by decide +kernel
    obtain rfl := Option.some.inj (hone.symm.trans hfence)
    rfl
  · obtain rfl : 0 = w := by simpa [Action.caller] using hw
    have hidle : (((taskFarm drainPolicy).run twoWorkers (parkedRun.take 5)).pending 0).isNone =
        true := by decide +kernel
    exact Option.isNone_iff_eq_none.1 hidle

theorem parkedFarm_awaits : ∃ r, parkedFarm.db.tasks.row 1 = some r ∧ Awaits r := by
  have hstate : (parkedFarm.db.tasks.row 1).map (fun r => (r.state, r.machineReason)) =
      some (.deferred, awaitingWorker) := by decide +kernel
  obtain ⟨r, hr, hfields⟩ := Option.map_eq_some_iff.1 hstate
  exact ⟨r, hr, congrArg Prod.fst hfields, congrArg Prod.snd hfields⟩

theorem handoff_stays_consistent_parkedFarm : ∃ r, parkedFarm.db.tasks.row 1 = some r ∧
    (∃ id o job, parkedFarm.db.outbox.row id = some o ∧ o.taskId = 1 ∧
      o.state = .acknowledged ∧ o.taskFencingToken = r.fencingToken ∧
      o.queueJobId = some job ∧ r.materializedQueueJobId = some job) ∧
    (claimNextTask { now := some 200 } ⟨200, 200⟩ (parkedFarm.stores 1)
      parkedFarm.db).2.2.tasks.row 1 = some r := by
  obtain ⟨r, hr, hwait⟩ := parkedFarm_awaits
  obtain ⟨-, -, hbound, -, hclaim⟩ := handoff_stays_consistent parkedFarm_reachable
  exact ⟨r, hr, hbound 1 r hr hwait, (hclaim 1 r hr hwait _ _ _).1⟩

end ResearchLab.Coordinator
