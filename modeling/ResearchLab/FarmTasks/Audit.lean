import Mathlib
import ResearchLab.FarmTasks.Authority

/-!
# Terminal states and the audit log

The log of a task is a path from the state it was created in to the state it is in, over every
run. That a terminal state absorbs needs a condition, because `_set_state` looks at no state:
a call that read a terminal row writes, unless the row changed or the unique index refuses.
-/
namespace ResearchLab.FarmTasks
open Foundation

variable {P : Policy} {db db' : TaskDb} {tid : ℕ} {row r : TaskRow}

/-- A write of `_set_state` that read a terminal row is going to raise. -/
def TaskFarm.Guarded (s : TaskFarm) : Action → Prop
  | .resume w _ => ∀ req tid row, s.pending w = some (.change req tid row) →
      row.state.terminal = true →
        (∃ r, s.db.tasks.row tid = some r ∧ r.mutationSeq ≠ row.mutationSeq) ∨
        (req.target.active = true ∧ keyTaken s.db row.spec.taskKey (some tid) = true)
  | _ => True

def guardedFarm (P : Policy) : Machine TaskFarm Action where
  init := (taskFarm P).init
  enabled s a := (taskFarm P).enabled s a ∧ s.Guarded a
  step := TaskFarm.step

theorem reachable_of_guarded {s : TaskFarm} (hs : (guardedFarm P).Reachable s) :
    (taskFarm P).Reachable s := by
  induction hs with
  | init h => exact .init h
  | step _ ha ih => exact .step ih ha.1

/-! ## Terminal rows -/

theorem TaskMove.not_terminal {r' : TaskRow} (h : TaskMove P tid r r')
    (hP : ∀ tid req, ¬ P.changes tid req) :
    r.state.terminal = false := by
  cases h with
  | claimed ready => rcases ready with h | ⟨h, -⟩ <;> simp [h, TaskState.terminal]
  | changed changes => exact absurd changes (hP _ _)
  | reaped expired => simp [(of_decide_eq_true expired).1, TaskState.terminal]
  | skipped waiting => rcases waiting with h | h <;> simp [h, TaskState.terminal]
  | finished _ waiting => simp [(of_decide_eq_true waiting).1, TaskState.terminal]

/-- Without `_set_state` no change touches the state of a terminal row. -/
theorem Change.terminal (h : Change P db db') (hP : ∀ tid req, ¬ P.changes tid req)
    (hrow : db.tasks.row tid = some row) (hterm : row.state.terminal = true) :
    ∃ row', db'.tasks.row tid = some row' ∧ row'.state = row.state := by
  have hkeep : ∀ {k : ℕ} {r r' : TaskRow}, Rewrites db db' k r r' →
      (k = tid → r = row → r'.state = r.state) →
      ∃ row', db'.tasks.row tid = some row' ∧ row'.state = row.state := by
    intro k r r' hw hs
    by_cases hk : tid = k
    · subst hk
      obtain rfl : r = row := Option.some.inj (hw.present.symm.trans hrow)
      exact ⟨r', by simp [hw.rows], hs rfl rfl⟩
    · exact ⟨row, by simp [hw.rows, hk, hrow], rfl⟩
  cases h with
  | @inserted args k now _ absent rows =>
    have hk : tid ≠ k := by
      rintro rfl
      simp [absent] at hrow
    exact ⟨row, by simp [rows, hk, hrow], rfl⟩
  | touched rewrites => exact hkeep rewrites fun _ _ => rfl
  | renewed _ _ rewrites => exact hkeep rewrites fun _ _ => rfl
  | moved rewrites move =>
    refine hkeep rewrites fun _ hr => ?_
    subst hr
    simp [move.not_terminal hP] at hterm
  | bound parks =>
    refine hkeep parks.rewrites fun _ hr => ?_
    subst hr
    simp [parks.running, TaskState.terminal] at hterm
  | prepared tasks => exact ⟨row, by rw [tasks, hrow], rfl⟩
  | marked tasks => exact ⟨row, by rw [tasks, hrow], rfl⟩
  | charged tasks => exact ⟨row, by rw [tasks, hrow], rfl⟩

theorem Changes.terminal (h : Changes P db db') (hP : ∀ tid req, ¬ P.changes tid req)
    (hrow : db.tasks.row tid = some row) (hterm : row.state.terminal = true) :
    ∃ row', db'.tasks.row tid = some row' ∧ row'.state = row.state := by
  induction h with
  | refl => exact ⟨row, hrow, rfl⟩
  | tail _ hc ih =>
    obtain ⟨row₁, hrow₁, hstate₁⟩ := ih
    obtain ⟨row₂, hrow₂, hstate₂⟩ := hc.terminal hP hrow₁ (hstate₁ ▸ hterm)
    exact ⟨row₂, hrow₂, hstate₂.trans hstate₁⟩

theorem setStateWrite_other {k : ℕ} (hk : k ≠ tid) (req : StateRequest) (observed : ℚ)
    (store : Store) :
    (setStateWrite req tid row observed store db).2.2.tasks.row k = db.tasks.row k := by
  simp only [setStateWrite]
  split
  · rfl
  next tasks hcas =>
  obtain ⟨_, -, -, rfl⟩ := Table.compareAndSet_eq_some.1 hcas
  split
  · rfl
  · exact Table.modify_row_of_ne _ hk _

theorem RowInv.unclaimed_of_terminal (h : RowInv row) (hterm : row.state.terminal = true) :
    row.claimOwner = none := by
  by_contra hne
  have := h.owner.1 (Option.isSome_iff_ne_none.2 hne)
  simp [this, TaskState.terminal] at hterm

/-- A write that read a terminal row raises, and then changes nothing, exactly when the row
has changed since or the unique index refuses the new state. -/
theorem terminal_write_raises_iff (hinv : RowInv r) (hr : db.tasks.row tid = some r)
    (hseen : Seen row r) (hnone : row.claimOwner = none) (req : StateRequest) (observed : ℚ)
    (store : Store) :
    (∃ e, (setStateWrite req tid row observed store db).1 = .error e) ↔
      (∃ r, db.tasks.row tid = some r ∧ r.mutationSeq ≠ row.mutationSeq) ∨
      (req.target.active = true ∧ keyTaken db row.spec.taskKey (some tid) = true) := by
  by_cases hseq : r.mutationSeq = row.mutationSeq
  · have hcurrent : ¬ ∃ r, db.tasks.row tid = some r ∧ r.mutationSeq ≠ row.mutationSeq := by
      rintro ⟨r', hr', hne⟩
      obtain rfl := Option.some.inj (hr.symm.trans hr')
      exact hne hseq
    simp only [setStateWrite_unchanged hinv hr hseen hseq hnone, hcurrent, false_or]
    split_ifs with h
    · simp [h]
    · simp [h]
  · have hwrite := setStateWrite_changed hr hseq req observed store
    exact ⟨fun _ => Or.inl ⟨r, hr, hseq⟩, fun _ => ⟨_, hwrite.1⟩⟩

theorem setStateWrite_error {e : TaskError} {req : StateRequest} {observed : ℚ}
    {store : Store} (h : (setStateWrite req tid row observed store db).1 = .error e) :
    (setStateWrite req tid row observed store db).2.2 = db := by
  simp only [setStateWrite] at h ⊢
  split at h
  · rfl
  · split at h
    · next hk => simp [hk]
    · cases h

/-- In a guarded state a write of `_set_state` to a terminal task raises. -/
theorem guarded_write_raises {s : TaskFarm} (hinv : s.Inv P) {w : ℕ} {observed : ℚ}
    {req : StateRequest} (hguard : s.Guarded (.resume w observed))
    (hpending : s.pending w = some (.change req tid row))
    (hr : s.db.tasks.row tid = some r) (hterm : r.state.terminal = true) :
    ∃ e, (setStateWrite req tid row observed (s.stores w) s.db).1 = .error e := by
  obtain ⟨r', hr', hseen⟩ := hinv.seen w req tid row hpending
  obtain rfl : r' = r := Option.some.inj (hr'.symm.trans hr)
  by_cases hseq : r'.mutationSeq = row.mutationSeq
  · have hsame := hseen.same hseq
    have hnone : row.claimOwner = none :=
      hsame.claimOwner ▸ (hinv.db.rows tid r' hr).unclaimed_of_terminal hterm
    exact (terminal_write_raises_iff (hinv.db.rows tid r' hr) hr hseen hnone req observed _).2
      (hguard req tid row hpending (hsame.state ▸ hterm))
  · exact ⟨_, (setStateWrite_changed hr hseq req observed _).1⟩

theorem guarded_step_terminal {s : TaskFarm} (hinv : s.Inv P) {a : Action}
    (ha : (guardedFarm P).enabled s a) (hrow : s.db.tasks.row tid = some row)
    (hterm : row.state.terminal = true) :
    ∃ row', (s.step a).db.tasks.row tid = some row' ∧ row'.state = row.state := by
  by_cases hwrites : ∃ tid req, s.Writes a tid req
  · obtain ⟨tid', req, w, observed, row₀, rfl, hpending⟩ := hwrites
    refine ⟨row, ?_, rfl⟩
    have hstep : (s.step (.resume w observed)).db =
        (setStateWrite req tid' row₀ observed (s.stores w) s.db).2.2 := by
      simp [TaskFarm.step, hpending, TaskFarm.answer, resume]
    by_cases htid : tid = tid'
    · subst htid
      obtain ⟨e, he⟩ := guarded_write_raises hinv ha.2 hpending hrow hterm
      rw [hstep, setStateWrite_error he, hrow]
    · rw [hstep, setStateWrite_other htid, hrow]
  · refine (hinv.step_changes ha.1 (q := fun _ _ => False) fun tid req hw => ?_).terminal
      (fun _ _ h => h) hrow hterm
    exact hwrites ⟨tid, req, hw⟩

theorem guarded_run_terminal {s t : TaskFarm} {as : List Action}
    (hst : (guardedFarm P).Steps s as t) (hs : (guardedFarm P).Reachable s)
    (hrow : s.db.tasks.row tid = some row) (hterm : row.state.terminal = true) :
    ∃ row', t.db.tasks.row tid = some row' ∧ row'.state = row.state := by
  refine hst.preserves (P := fun t => ∃ row', t.db.tasks.row tid = some row' ∧
    row'.state = row.state) ?_ hs ⟨row, hrow, rfl⟩
  rintro u a hu ⟨row₁, hrow₁, hstate₁⟩ ha
  obtain ⟨row₂, hrow₂, hstate₂⟩ := guarded_step_terminal
    (inv_of_reachable (reachable_of_guarded hu)) ha hrow₁ (hstate₁ ▸ hterm)
  exact ⟨row₂, hrow₂, hstate₂.trans hstate₁⟩

/-! ## The log since the creation -/

/-- The log is a path from `created` to the state of the row, with growing sequence numbers
that the row has reached. -/
structure Audited (created : TaskState) (log : List TransitionRow) (row : TaskRow) : Prop where
  path : AuditPath created log row.state
  increasing : (log.map TransitionRow.mutationSeq).Pairwise (· < ·)
  bounded : ∀ t ∈ log, t.mutationSeq ≤ row.mutationSeq

theorem insertTask_new {args : EnqueueArgs} {now : ℚ} (hnone : db.tasks.row tid = none)
    (hrow : (insertTask args now db).2.tasks.row tid = some row) :
    row.state = args.state ∧ (insertTask args now db).2.transitions = db.transitions := by
  unfold insertTask at hrow ⊢
  split_ifs at hrow ⊢
  · simp [hnone] at hrow
  · simp only [Table.insert_row (Table.row_nextKey _)] at hrow
    split_ifs at hrow with hk
    · obtain rfl := Option.some.inj hrow
      exact ⟨rfl, rfl⟩
    · simp [hnone] at hrow

theorem enqueueTask_new {args : EnqueueArgs} {now : ℚ} (hnone : db.tasks.row tid = none)
    (hrow : (enqueueTask args now db).2.tasks.row tid = some row) :
    row.state = args.state ∧ (enqueueTask args now db).2.transitions = db.transitions := by
  have hlower : ∀ k p src, (lowerPriority k p src now db).tasks.row tid = none := by
    intro k p src
    by_cases hk : tid = k
    · subst hk
      simp [lowerPriority, hnone]
    · simp [lowerPriority, Table.modify_row_of_ne _ hk, hnone]
  have hinsert : (insertTask args now db).2.tasks.row tid = some row →
      row.state = args.state ∧ (insertTask args now db).2.transitions = db.transitions :=
    insertTask_new hnone
  simp only [enqueueTask] at hrow ⊢
  split at hrow
  · split_ifs at hrow <;> simp [hlower, hnone] at hrow
  · split at hrow
    · simp [hnone] at hrow
    · split at hrow <;> next heq =>
        simp only [heq] at hinsert
        exact hinsert hrow

/-- The task that an action may create. -/
def Action.creates : Action → Option EnqueueArgs
  | .enqueue args _ => some args
  | .insert args _ => some args
  | _ => none

theorem created_task {s : TaskFarm} {a : Action} {args : EnqueueArgs}
    (ha : a.creates = some args) (hnone : s.db.tasks.row tid = none)
    (hrow : (s.step a).db.tasks.row tid = some row) :
    row.state = args.state ∧ (s.step a).db.transitions = s.db.transitions := by
  cases a with
  | enqueue args' now =>
    obtain rfl : args' = args := by simpa [Action.creates] using ha
    exact enqueueTask_new hnone hrow
  | insert args' now =>
    obtain rfl : args' = args := by simpa [Action.creates] using ha
    exact insertTask_new hnone hrow
  | _ => simp [Action.creates] at ha

theorem logOf_absent (h : DbInv db) (hnone : db.tasks.row tid = none) : logOf db tid = [] := by
  refine List.filter_eq_nil_iff.2 fun t ht => ?_
  have := h.logged t ht
  rintro heq
  simp only [decide_eq_true_eq] at heq
  simp [heq, hnone] at this

theorem audited_run {s t : TaskFarm} {a : Action} {args : EnqueueArgs} {as : List Action}
    (hs : (taskFarm P).Reachable s) (ha : (taskFarm P).enabled s a)
    (hcreates : a.creates = some args) (hnone : s.db.tasks.row tid = none)
    (hrow : (s.step a).db.tasks.row tid = some row)
    (hst : (taskFarm P).Steps (s.step a) as t) :
    ∃ row', t.db.tasks.row tid = some row' ∧ Audited args.state (logOf t.db tid) row' := by
  obtain ⟨hstate, hlog⟩ := created_task hcreates hnone hrow
  have hempty : logOf (s.step a).db tid = [] := by
    rw [logOf, hlog]
    exact logOf_absent (inv_of_reachable hs).db hnone
  obtain ⟨row', ts, hf⟩ := run_extends hst (.step hs ha) tid row hrow
  refine ⟨row', hf.present, ?_⟩
  rw [hf.log, hempty, List.nil_append, ← hstate]
  exact ⟨hf.path, hf.increasing, fun t ht => (hf.above t ht).2⟩

/-- In every run whose writes of `_set_state` to terminal rows raise, a terminal state absorbs
and every call on a terminal task raises; in every run the log is a path. -/
theorem terminal_absorbs_and_log_is_path (P : Policy) :
    (∀ s t as tid row, (guardedFarm P).Reachable s → (guardedFarm P).Steps s as t →
      s.db.tasks.row tid = some row → row.state.terminal = true →
      ∃ row', t.db.tasks.row tid = some row' ∧ row'.state = row.state) ∧
    (∀ s w observed req tid row r, (guardedFarm P).Reachable s →
      (guardedFarm P).enabled s (.resume w observed) →
      s.pending w = some (.change req tid row) → s.db.tasks.row tid = some r →
      r.state.terminal = true →
      (∃ e, (resume (.change req tid row) observed (s.stores w) s.db).1 = .raised e) ∧
        (resume (.change req tid row) observed (s.stores w) s.db).2.2 = s.db) ∧
    (∀ s t a args tid row as, (taskFarm P).Reachable s → (taskFarm P).enabled s a →
      a.creates = some args → s.db.tasks.row tid = none →
      (s.step a).db.tasks.row tid = some row → (taskFarm P).Steps (s.step a) as t →
      ∃ row', t.db.tasks.row tid = some row' ∧ Audited args.state (logOf t.db tid) row') := by
  refine ⟨fun s t as tid row hs hst => guarded_run_terminal hst hs, ?_,
    fun s t a args tid row as hs ha hc hn hr hst => audited_run hs ha hc hn hr hst⟩
  intro s w observed req tid row r hs ha hpending hr hterm
  obtain ⟨e, he⟩ := guarded_write_raises (inv_of_reachable (reachable_of_guarded hs)) ha.2
    hpending hr hterm
  exact ⟨⟨e, by simp [resume, he, replyOf]⟩, setStateWrite_error he⟩

/-! ## A completed task that is queued again -/

/-- The state that a pending write of `_set_state` has read. -/
def Pending.readState : Pending → Option TaskState
  | .change _ _ row => some row.state
  | _ => none

/-- Worker 0 claims and completes the task; nothing here writes to a terminal row. -/
def completedRun : List Action :=
  [.enqueue sweepTask 100, .claim 0 { now := some 100 } ⟨100, 100⟩,
    .change 0 1 lateCompletion none 101, .resume 0 101]

def completedFarm : TaskFarm := (guardedFarm openPolicy).run twoWorkers completedRun

theorem completedFarm_reachable : (guardedFarm openPolicy).Reachable completedFarm := by
  refine Machine.reachable_run completedRun ⟨rfl, fun _ => rfl⟩
    ⟨⟨⟨by simp [Action.caller], Or.inl rfl⟩, trivial⟩,
      ⟨⟨by simp [Action.caller]; rfl, trivial⟩, trivial⟩,
      ⟨⟨by simp [Action.caller]; rfl, trivial⟩, trivial⟩,
      ⟨⟨by simp [Action.caller], trivial⟩, ?_⟩, trivial⟩
  intro req tid row hpending hterm
  change ((guardedFarm openPolicy).run twoWorkers (completedRun.take 3)).pending 0 = _ at hpending
  have hrun : (((guardedFarm openPolicy).run twoWorkers (completedRun.take 3)).pending 0).bind
      Pending.readState = some .running := by decide +kernel
  rw [hpending] at hrun
  simp [Pending.readState] at hrun
  simp [hrun, TaskState.terminal] at hterm

theorem completedFarm_row : ∃ row, completedFarm.db.tasks.row 1 = some row ∧
    row.state = .completed := by
  have hstate : (completedFarm.db.tasks.row 1).map TaskRow.state = some .completed := by
    decide +kernel
  cases h : completedFarm.db.tasks.row 1 with
  | none => simp [h] at hstate
  | some row => exact ⟨row, rfl, by simpa [h] using hstate⟩

theorem completedFarm_idle (w : ℕ) (hw : w ≤ 1) : completedFarm.pending w = none := by
  have h : ∀ w ∈ [0, 1], (completedFarm.pending w).isNone = true := by decide +kernel
  exact Option.isNone_iff_eq_none.1 (h w (by simp; omega))

def requeueRun : List Action :=
  [.change 0 1 (.requeue "unblocked") none 102, .resume 0 102]

theorem requeueRun_steps : (taskFarm openPolicy).Steps completedFarm requeueRun
    ((taskFarm openPolicy).run completedFarm requeueRun) :=
  Machine.Runs.steps ⟨⟨by simp [Action.caller, completedFarm_idle], trivial⟩,
    ⟨by simp [Action.caller], trivial⟩, trivial⟩

/-- `requeue_task` takes a completed task back to `queued`. -/
theorem completed_task_is_requeued :
    ¬ ∀ s t as tid row, (taskFarm openPolicy).Reachable s →
      (taskFarm openPolicy).Steps s as t → s.db.tasks.row tid = some row →
      row.state.terminal = true →
      ∃ row', t.db.tasks.row tid = some row' ∧ row'.state = row.state := by
  intro h
  obtain ⟨row, hrow, hstate⟩ := completedFarm_row
  obtain ⟨row', hrow', hstate'⟩ := h _ _ _ 1 row (reachable_of_guarded completedFarm_reachable)
    requeueRun_steps hrow (by simp [hstate, TaskState.terminal])
  have hqueued : ((((taskFarm openPolicy).run completedFarm requeueRun).db.tasks.row 1).map
      TaskRow.state) = some .queued := by decide +kernel
  simp [hrow', hstate', hstate] at hqueued

def lateReap : Action := .reconcile 1 "orphan_running_requeued" (some 200) ⟨200, 200⟩

theorem terminal_absorbs_and_log_is_path_completedFarm :
    ∃ row, ((guardedFarm openPolicy).step completedFarm lateReap).db.tasks.row 1 = some row ∧
      row.state = .completed := by
  obtain ⟨row, hrow, hstate⟩ := completedFarm_row
  obtain ⟨habsorbs, -, -⟩ := terminal_absorbs_and_log_is_path openPolicy
  obtain ⟨row', hrow', hstate'⟩ := habsorbs completedFarm _ [lateReap] 1 row
    completedFarm_reachable (.cons ⟨⟨by simp [lateReap, Action.caller, completedFarm_idle],
      trivial⟩, trivial⟩ (.nil _)) hrow
    (by simp [hstate, TaskState.terminal])
  exact ⟨row', hrow', hstate'.trans hstate⟩

end ResearchLab.FarmTasks
