import Mathlib
import ResearchLab.ComputeQueue.Fencing
import ResearchLab.Coordinator.Completions
import ResearchLab.FarmTasks.Audit

/-!
# The classification of a finished compute job

Coordinators that share a brain database, a compute queue and the spec files. Between the
transaction that ends a task and the one that enqueues its classification a call owes the
classification, and nothing but that call will enqueue it: a crash there loses it.
-/
namespace ResearchLab.Coordinator
open Foundation FarmTasks

/-- The task ended with its compute job. -/
def Ended (r : TaskRow) : Prop := r.state = .completed ∧ r.machineReason = "compute_completed"

/-- A classification of the job was created. -/
def Classified (db : TaskDb) (job : ℕ) : Prop :=
  ∃ k r, db.tasks.row k = some r ∧ r.spec.taskType = "classify_result" ∧
    r.spec.taskKey = classifyKey job

/-- A call may end a task with the job. -/
def Settles (P : Policy) (job : Option ℕ) : Prop :=
  (∃ tid args, P.finishes tid args ∧ args.outcome = .completed ∧ some args.queueJobId = job) ∨
    ∃ tid ref label, P.changes tid (.complete ref label job "compute_completed")

variable {P : Policy} {db db' : TaskDb}

theorem Classified.extends {job : ℕ} (h : Classified db job) (he : Extends db db') :
    Classified db' job := by
  obtain ⟨k, r, hr, htype, hkey⟩ := h
  obtain ⟨r', _, hf⟩ := he k r hr
  exact ⟨k, r', hf.present, by rw [hf.spec, htype], by rw [hf.spec, hkey]⟩

theorem TaskMove.ended {tid : ℕ} {r r' : TaskRow} (hm : TaskMove P tid r r') (h : Ended r') :
    Settles P r'.materializedQueueJobId := by
  cases hm with
  | claimed => simp [Ended, claimedTask] at h
  | @changed req now changes unclaimed =>
    cases req with
    | complete ref label job reason =>
      obtain rfl : reason = "compute_completed" := h.2
      exact Or.inr ⟨tid, ref, label, changes⟩
    | _ => simp [Ended, changedTask, StateRequest.target] at h
  | reaped => simp [Ended, reapedTask] at h
  | skipped => simp [Ended, skippedTask] at h
  | @finished args now finishes waiting =>
    refine Or.inl ⟨tid, args, finishes, ?_, rfl⟩
    cases ho : args.outcome with
    | completed => rfl
    | failed => simp [Ended, finishedTask, ho, QueueOutcome.target] at h

/-- A task that has ended had ended before, or a call that may end it did. -/
theorem Change.ended (hc : Change P db db') {tid : ℕ} {r' : TaskRow}
    (hr' : db'.tasks.row tid = some r') (h : Ended r') :
    (∃ r, db.tasks.row tid = some r ∧ Ended r ∧
      r'.materializedQueueJobId = r.materializedQueueJobId) ∨
    Settles P r'.materializedQueueJobId := by
  have hrewrite : ∀ {k r s}, Rewrites db db' k r s →
      (s = r' → (Ended r ∧ r'.materializedQueueJobId = r.materializedQueueJobId) ∨
        Settles P r'.materializedQueueJobId) →
      (∃ r, db.tasks.row tid = some r ∧ Ended r ∧
        r'.materializedQueueJobId = r.materializedQueueJobId) ∨
      Settles P r'.materializedQueueJobId := by
    intro k r s hw hs
    rw [hw.rows] at hr'
    split_ifs at hr' with hk
    · exact (hs (Option.some.inj hr')).imp_left fun hr => ⟨r, hk ▸ hw.present, hr⟩
    · exact Or.inl ⟨r', hr', h, rfl⟩
  cases hc with
  | @inserted args k now creates absent rows =>
    rw [rows] at hr'
    split_ifs at hr' with hk
    · obtain rfl := Option.some.inj hr'
      have hstate : args.state = .completed := h.1
      rcases P.waits args creates with hw | hw | hw <;> simp [hstate] at hw
    · exact Or.inl ⟨r', hr', h, rfl⟩
  | touched rewrites =>
    refine hrewrite rewrites fun hs => ?_
    subst hs
    exact Or.inl ⟨h, rfl⟩
  | renewed _ _ rewrites =>
    refine hrewrite rewrites fun hs => ?_
    subst hs
    exact Or.inl ⟨h, rfl⟩
  | moved rewrites move =>
    refine hrewrite rewrites fun hs => ?_
    subst hs
    exact Or.inr (TaskMove.ended move h)
  | bound parks =>
    refine hrewrite parks.rewrites fun hs => ?_
    subst hs
    simp [Ended, parkedTask] at h
  | prepared tasks => exact Or.inl ⟨r', tasks ▸ hr', h, rfl⟩
  | marked tasks => exact Or.inl ⟨r', tasks ▸ hr', h, rfl⟩
  | charged tasks => exact Or.inl ⟨r', tasks ▸ hr', h, rfl⟩

theorem Changes.ended (hc : Changes P db db') {tid : ℕ} {r' : TaskRow}
    (hr' : db'.tasks.row tid = some r') (h : Ended r') :
    (∃ r, db.tasks.row tid = some r ∧ Ended r ∧
      r'.materializedQueueJobId = r.materializedQueueJobId) ∨
    Settles P r'.materializedQueueJobId := by
  induction hc generalizing r' with
  | refl => exact Or.inl ⟨r', hr', h, rfl⟩
  | tail _ hstep ih =>
    rcases Change.ended hstep hr' h with ⟨r, hr, hended, hjob⟩ | hsettles
    · rw [hjob]
      exact ih hr hended
    · exact Or.inr hsettles

/-- A row has the columns of its creation. -/
theorem Change.created (hc : Change P db db') {k : ℕ} {r' : TaskRow}
    (hr' : db'.tasks.row k = some r') :
    (∃ r, db.tasks.row k = some r ∧ r'.spec = r.spec) ∨
      ∃ args, P.creates args ∧ r'.spec = args.spec := by
  cases hrow : db.tasks.row k with
  | some r =>
    obtain ⟨r'', _, hf⟩ := hc.extends k r hrow
    obtain rfl := Option.some.inj (hf.present.symm.trans hr')
    exact Or.inl ⟨r, rfl, hf.spec⟩
  | none =>
    have hrewrite : ∀ {j r s}, Rewrites db db' j r s → False := by
      intro j r s hw
      rw [hw.rows, hrow] at hr'
      split_ifs at hr' with hk
      simp [hk, hw.present] at hrow
    cases hc with
    | @inserted args j now creates absent rows =>
      rw [rows, hrow] at hr'
      split_ifs at hr' with hk
      obtain rfl := Option.some.inj hr'
      exact Or.inr ⟨args, creates, rfl⟩
    | touched rewrites => exact (hrewrite rewrites).elim
    | renewed _ _ rewrites => exact (hrewrite rewrites).elim
    | moved rewrites => exact (hrewrite rewrites).elim
    | bound parks => exact (hrewrite parks.rewrites).elim
    | prepared tasks => simp [tasks, hrow] at hr'
    | marked tasks => simp [tasks, hrow] at hr'
    | charged tasks => simp [tasks, hrow] at hr'

/-- Only classifications have the key of one. -/
def Typed (db : TaskDb) : Prop :=
  ∀ k r, db.tasks.row k = some r → ∀ job, r.spec.taskKey = classifyKey job →
    r.spec.taskType = "classify_result"

theorem Typed.changes (h : Typed db) (hc : Changes P db db')
    (hP : ∀ args, P.creates args → ∀ job, args.spec.taskKey = classifyKey job →
      args.spec.taskType = "classify_result") : Typed db' := by
  induction hc with
  | refl => exact h
  | tail _ hstep ih =>
    intro k r' hr' job hkey
    rcases Change.created hstep hr' with ⟨r, hr, hspec⟩ | ⟨args, hargs, hspec⟩
    · rw [hspec] at hkey ⊢
      exact ih k r hr job hkey
    · rw [hspec] at hkey ⊢
      exact hP args hargs job hkey

/-! ## One statement of a call -/

/-- The call has ended a task with the job and has not yet seen to its classification. -/
def SyncPoint.Owes (job : ℕ) : SyncPoint → Prop
  | .enqueue b _ _ => b.job = job
  | .insert b _ _ => b.job = job
  | _ => False

/-- A pending write has read a row that is claimed or not running. -/
def SyncPoint.Sound : SyncPoint → Prop
  | .write _ _ _ seen _ => seen.claimOwner = none → seen.state ≠ .running
  | _ => True

/-- What a call may do at a point. -/
def pointPolicy (p : SyncPoint) : Policy where
  creates args := ∃ b label, args = classifyArgs b label
  intends _ _ _ := False
  changes _ req := ∃ b outcome label seen rest,
    p = .write b outcome label seen rest ∧ req = legacyRequest b label outcome
  finishes _ args := ∃ b row rest outcome,
    p = .settle b row rest ∧ args = finishArgs b outcome row.2.runDirLabel
  waits := by
    rintro _ ⟨b, label, rfl⟩
    exact Or.inl rfl

def SyncReply.point : SyncReply → Option SyncPoint
  | .at next => some next
  | _ => none

variable {src : Sources} {now : ℚ} {clock : Readings} {store : Store} {p : SyncPoint}

theorem finishMaterializedTask_error {tid : ℕ} {args : FinishArgs} {n : Option ℚ}
    {e : TaskError} (h : (finishMaterializedTask tid args n clock store db).1 = .error e) :
    (finishMaterializedTask tid args n clock store db).2.2 = db := by
  simp only [finishMaterializedTask] at h ⊢
  split at h
  · split at h
    · next hk => rw [if_pos hk]
    · next hk =>
      rw [if_neg hk]
      split at h
      · rfl
      · cases h
  · rfl

theorem settle_eq (now : ℚ) (clock : Readings) (store : Store) (db : TaskDb) (b : Binding)
    (row : ComputeRow) (rest : List TaskRow) :
    (settle now b row rest clock store db).2.2 = db ∨
    ∃ outcome, (settle now b row rest clock store db).2.2 =
        (finishMaterializedTask b.task.taskId (finishArgs b outcome row.2.runDirLabel) (some now)
          clock store db).2.2 ∧
      (settle now b row rest clock store db).1 =
        .at (afterEnd b row.2.runDirLabel rest outcome) := by
  simp only [settle]
  split
  · exact Or.inl rfl
  next outcome _ =>
  split
  · split
    · next heq => exact Or.inr ⟨outcome, by rw [heq], rfl⟩
    · next heq =>
      refine Or.inl ?_
      have herr := finishMaterializedTask_error (congrArg Prod.fst heq)
      rw [heq] at herr
      exact herr
  · split <;> exact Or.inl rfl

theorem afterEnd_owes {b : Binding} {label : Option String} {rest : List TaskRow} {job : ℕ}
    (h : b.job = job) : (afterEnd b label rest .completed).Owes job := h

/-- Every statement is a chain of changes that the point allows. -/
theorem syncStep_changes (hp : p.Sound) :
    Changes (pointPolicy p) db (syncStep src now clock store db p).2.2 := by
  cases p with
  | loop waiting => cases waiting <;> exact .refl
  | renew b row rest =>
    simp only [syncStep]
    split
    · exact .refl
    next fence _ =>
    have h := renewTaskClaimToken_changes (P := pointPolicy (.renew b row rest)) b.task.taskId fence
      none (some now) clock store db
    split <;> next heq => simpa [heq] using h
  | settle b row rest =>
    rcases settle_eq now clock store db b row rest with heq | ⟨outcome, heq, -⟩
    · simp only [syncStep]
      rw [heq]
    · simp only [syncStep]
      rw [heq]
      exact finishMaterializedTask_changes (P := pointPolicy (.settle b row rest))
        ⟨b, row, rest, outcome, rfl, rfl⟩ ..
  | write b outcome label seen rest =>
    have hreq : (pointPolicy (.write b outcome label seen rest)).changes b.task.taskId
        (legacyRequest b label outcome) := ⟨b, outcome, label, seen, rest, rfl, rfl⟩
    have h := setStateWrite_changes hreq hp clock.first store db
    simp only [syncStep]
    split <;> next heq => simpa [heq] using h
  | enqueue b label rest =>
    simp only [syncStep]
    split
    · exact .refl
    · split <;> exact .refl
  | insert b label rest =>
    have h := insertTask_changes (P := pointPolicy (.insert b label rest)) ⟨b, label, rfl⟩ now db
    simp only [syncStep]
    split <;> next heq => simpa [heq] using h
  | reread b label rest =>
    simp only [syncStep]
    split <;> exact .refl
  | lower tid b label rest => exact lowerPriority_changes ..
  | _ => exact .refl

theorem settles_point {job : Option ℕ} (h : Settles (pointPolicy p) job) :
    (∃ b row rest, p = .settle b row rest ∧ job = some b.job) ∨
    ∃ b label seen rest, p = .write b .completed label seen rest ∧ job = some b.job := by
  rcases h with ⟨_, args, ⟨b, row, rest, outcome, rfl, rfl⟩, -, rfl⟩ |
    ⟨_, ref, label, b, outcome, label', seen, rest, rfl, hreq⟩
  · exact Or.inl ⟨b, row, rest, rfl, rfl⟩
  · cases outcome with
    | completed =>
      obtain ⟨-, -, rfl⟩ : ref = label' ∧ label = label' ∧ job = some b.job := by
        simpa [legacyRequest] using hreq
      exact Or.inr ⟨b, label', seen, rest, rfl, rfl⟩
    | failed => simp [legacyRequest] at hreq

/-- A task that ends by a statement leaves the call owing its classification. -/
theorem syncStep_ended (hp : p.Sound) {tid : ℕ} {r' : TaskRow}
    (hr' : (syncStep src now clock store db p).2.2.tasks.row tid = some r') (h : Ended r') :
    (∃ r, db.tasks.row tid = some r ∧ Ended r ∧
      r'.materializedQueueJobId = r.materializedQueueJobId) ∨
    ∃ job next, r'.materializedQueueJobId = some job ∧
      (syncStep src now clock store db p).1 = .at next ∧ next.Owes job := by
  rcases Changes.ended (syncStep_changes hp) hr' h with hold | hsettles
  · exact Or.inl hold
  rcases settles_point hsettles with ⟨b, row, rest, rfl, hjob⟩ | ⟨b, label, seen, rest, rfl, hjob⟩
  · rcases settle_eq now clock store db b row rest with heq | ⟨outcome, heq, hreply⟩
    · exact Or.inl ⟨r', by simpa [syncStep, heq] using hr', h, rfl⟩
    cases outcome with
    | completed => exact Or.inr ⟨b.job, _, hjob, hreply, afterEnd_owes rfl⟩
    | failed =>
      let P : Policy := { pointPolicy .scan with
        finishes := fun _ args => args = finishArgs b .failed row.2.runDirLabel }
      have hc : Changes P db (settle now b row rest clock store db).2.2 :=
        heq ▸ finishMaterializedTask_changes (P := P) rfl ..
      rcases Changes.ended hc hr' h with hold | ⟨_, _, rfl, houtcome, -⟩ |
        ⟨_, _, _, _, _, _, _, _, hwrite, -⟩
      · exact Or.inl hold
      · simp [finishArgs] at houtcome
      · cases hwrite
  · cases hw : (setStateWrite (legacyRequest b label .completed) b.task.taskId seen clock.first
        store db).1 with
    | error e =>
      have herr := setStateWrite_error hw
      refine Or.inl ⟨r', ?_, h, rfl⟩
      rw [← hr']
      simp only [syncStep]
      split
      · next heq => simp [heq] at hw
      · next heq =>
        rw [heq] at herr
        rw [← herr]
    | ok u =>
      refine Or.inr ⟨b.job, afterEnd b label rest .completed, hjob, ?_, afterEnd_owes rfl⟩
      simp only [syncStep]
      split
      · rfl
      · next heq => simp [heq] at hw

theorem mem_of_activeTask {key : String} {r : TaskRow} (h : activeTask key db = some r) :
    ∃ k, db.tasks.row k = some r ∧ r.spec.taskKey = key := by
  obtain ⟨k, hk⟩ := Table.mem_toList.1 (List.mem_of_find?_eq_some h)
  have hp := List.find?_some h
  exact ⟨k, hk, (of_decide_eq_true hp).1⟩

theorem mem_of_lastCompleted {key : String} {r : TaskRow} (h : lastCompleted key db = some r) :
    ∃ k, db.tasks.row k = some r ∧ r.spec.taskKey = key := by
  obtain ⟨hmem, hp⟩ := List.mem_filter.1 (firstMin_mem h)
  obtain ⟨k, hk⟩ := Table.mem_toList.1 hmem
  exact ⟨k, hk, (of_decide_eq_true hp).1⟩

theorem mem_of_keyTaken {key : String} (h : keyTaken db key none = true) :
    ∃ k r, db.tasks.row k = some r ∧ r.spec.taskKey = key := by
  obtain ⟨r, hmem, hp⟩ := List.any_eq_true.1 h
  obtain ⟨k, hk⟩ := Table.mem_toList.1 hmem
  exact ⟨k, r, hk, (of_decide_eq_true hp).1⟩

/-- A call that owes a classification creates it, finds it, or owes it still. -/
theorem syncStep_owes (ht : Typed db) {job : ℕ} (h : p.Owes job) :
    Classified (syncStep src now clock store db p).2.2 job ∨
    ∃ next, (syncStep src now clock store db p).1 = .at next ∧ next.Owes job := by
  have hkeyed : ∀ {k r}, db.tasks.row k = some r → r.spec.taskKey = classifyKey job →
      Classified db job := fun hr hkey => ⟨_, _, hr, ht _ _ hr job hkey, hkey⟩
  cases p with
  | enqueue b label rest =>
    obtain rfl : b.job = job := h
    simp only [syncStep]
    split
    · next active hactive =>
      obtain ⟨k, hk, hkey⟩ := mem_of_activeTask hactive
      exact Or.inl (hkeyed hk hkey)
    · split
      · next done hdone =>
        obtain ⟨k, hk, hkey⟩ := mem_of_lastCompleted (Option.filter_eq_some_iff.1 hdone).1
        exact Or.inl (hkeyed hk hkey)
      · exact Or.inr ⟨_, rfl, rfl⟩
  | insert b label rest =>
    obtain rfl : b.job = job := h
    simp only [syncStep, insertTask]
    by_cases htaken : (classifyArgs b label).state.active = true ∧
        keyTaken db (classifyArgs b label).spec.taskKey none = true
    · rw [if_pos htaken]
      obtain ⟨k, r, hk, hkey⟩ := mem_of_keyTaken htaken.2
      exact Or.inl (hkeyed hk hkey)
    · rw [if_neg htaken]
      exact Or.inl ⟨_, _, Table.insert_row_self (Table.row_nextKey _) _, rfl, rfl⟩
  | _ => exact h.elim

theorem replyLook_sound {α : Type} {rest : List TaskRow} {f : α → SyncPoint} {look : Look α}
    {next : SyncPoint} (hf : ∀ a, (f a).Sound) (h : replyLook rest f look = .at next) :
    next.Sound := by
  cases look with
  | found a => exact SyncReply.at.inj h ▸ hf a
  | passed => exact SyncReply.at.inj h ▸ trivial
  | fatal message => cases h

theorem replyStale_sound {b : Binding} {outcome : QueueOutcome} {rest : List TaskRow}
    {e : TaskError} {next : SyncPoint} (h : replyStale b outcome rest e = .at next) :
    next.Sound := by
  cases e with
  | stale message =>
    simp only [replyStale] at h
    split_ifs at h
    exact SyncReply.at.inj h ▸ trivial
  | _ => cases h

theorem afterEnd_sound (b : Binding) (label : Option String) (rest : List TaskRow)
    (outcome : QueueOutcome) : (afterEnd b label rest outcome).Sound := by
  cases outcome <;> trivial

theorem afterActive_sound {b : Binding} {label : Option String} {active : TaskRow}
    {rest : List TaskRow} {next : SyncPoint} (h : afterActive b label active rest = .at next) :
    next.Sound := by
  unfold afterActive at h
  split_ifs at h <;> exact SyncReply.at.inj h ▸ trivial

theorem settle_sound {b : Binding} {row : ComputeRow} {rest : List TaskRow} {next : SyncPoint}
    (h : (settle now b row rest clock store db).1 = .at next) : next.Sound := by
  simp only [settle] at h
  split at h
  · exact SyncReply.at.inj h ▸ trivial
  next outcome _ =>
  split at h
  · split at h
    · exact SyncReply.at.inj h ▸ afterEnd_sound ..
    · exact replyStale_sound h
  · split at h
    · next heq => exact SyncReply.at.inj h ▸ (setStateCheck_ok (congrArg Prod.fst heq)).2
    · exact replyStale_sound h

theorem syncStep_sound {next : SyncPoint}
    (h : (syncStep src now clock store db p).1 = .at next) : next.Sound := by
  cases p with
  | scan => exact SyncReply.at.inj h ▸ trivial
  | scanLegacy => exact SyncReply.at.inj h ▸ trivial
  | loop waiting =>
    cases waiting with
    | nil => cases h
    | cons =>
      refine replyLook_sound ?_ h
      exact fun _ => trivial
  | compute =>
    refine replyLook_sound ?_ h
    exact fun _ => trivial
  | spec =>
    refine replyLook_sound (fun _ => ?_) h
    split_ifs <;> trivial
  | renew =>
    simp only [syncStep] at h
    split at h
    · exact SyncReply.at.inj h ▸ trivial
    · split at h
      · exact SyncReply.at.inj h ▸ trivial
      · exact SyncReply.at.inj h ▸ trivial
      · cases h
  | settle => exact settle_sound h
  | write =>
    simp only [syncStep] at h
    split at h
    · exact SyncReply.at.inj h ▸ afterEnd_sound ..
    · exact replyStale_sound h
  | enqueue =>
    simp only [syncStep] at h
    split at h
    · exact afterActive_sound h
    · split at h <;> exact SyncReply.at.inj h ▸ trivial
  | insert =>
    simp only [syncStep] at h
    split at h <;> exact SyncReply.at.inj h ▸ trivial
  | reread =>
    simp only [syncStep] at h
    split at h
    · exact afterActive_sound h
    · cases h
  | lower => exact SyncReply.at.inj h ▸ trivial

/-! ## Cycles -/

/-- A call of `_sync_completions` with its time. -/
structure SyncCall where
  now : ℚ
  point : SyncPoint

/-- The databases, the spec files, and the call of `_sync_completions` each store is in. -/
structure Cycles where
  farm : TaskFarm
  compute : ComputeQueue.Farm
  files : String → Option String
  sync : ℕ → Option SyncCall

inductive CycleAction
  | brain (a : FarmTasks.Action)
  | compute (a : ComputeQueue.Action)
  | writeSpec (path : String) (content : Option String)
  | beginSync (w : ℕ) (now : ℚ)
  | sync (w : ℕ) (clock : Readings)
  | crash (w : ℕ) (ownerId : String) (leaseSeconds floor : ℚ)

def Cycles.sources (sha256 : String → String) (s : Cycles) : Sources :=
  ⟨sha256, s.files, s.compute.db⟩

/-- `crash` loses the call of the store and opens the store again. -/
def Cycles.step (sha256 : String → String) (s : Cycles) : CycleAction → Cycles
  | .brain a => { s with farm := s.farm.step a }
  | .compute a => { s with compute := s.compute.step a }
  | .writeSpec path content => { s with files := Function.update s.files path content }
  | .beginSync w now => { s with sync := Function.update s.sync w (some ⟨now, .scan⟩) }
  | .sync w clock =>
      match s.sync w with
      | none => s
      | some call =>
          let r := syncStep (s.sources sha256) call.now clock (s.farm.stores w) s.farm.db
            call.point
          { s with
            farm := s.farm.setStore w r.2.1 r.2.2
            sync := Function.update s.sync w (r.1.point.map fun next => ⟨call.now, next⟩) }
  | .crash w ownerId leaseSeconds floor =>
      { s with
        farm := s.farm.step (.open w ownerId leaseSeconds floor)
        sync := Function.update s.sync w none }

/-- What the rest of a cycle does: it ends no task with its compute job, and gives the key of a
classification to classifications only. -/
def cyclePolicy : Policy where
  creates args := (args.state = .queued ∨ args.state = .deferred ∨ args.state = .blocked) ∧
    ∀ job, args.spec.taskKey = classifyKey job → args.spec.taskType = "classify_result"
  intends _ _ _ := True
  changes _ req := req.target = .completed → req.reason ≠ "compute_completed"
  finishes _ _ := False
  waits _ h := h.1

/-- The store whose connection an action uses. -/
def connectionOf : FarmTasks.Action → Option ℕ
  | .resume w _ => some w
  | .open w .. => some w
  | a => a.caller

def Cycles.enabled (s : Cycles) : CycleAction → Prop
  | .brain a => (taskFarm cyclePolicy).enabled s.farm a ∧
      ∀ w ∈ connectionOf a, (s.sync w).isNone = true
  | .compute a => ComputeQueue.computeQueue.enabled s.compute a
  | .beginSync w _ => s.farm.pending w = none ∧ (s.sync w).isNone = true
  | _ => True

def cycles (sha256 : String → String) : Machine Cycles CycleAction where
  init s := (taskFarm cyclePolicy).init s.farm ∧ ComputeQueue.computeQueue.init s.compute ∧
    ∀ w, s.sync w = none
  enabled := Cycles.enabled
  step := Cycles.step sha256

/-- No crash falls where the call owes a classification that does not exist. -/
def Cycles.Guarded (s : Cycles) : CycleAction → Prop
  | .crash w .. => ∀ call ∈ s.sync w, ∀ job, call.point.Owes job → Classified s.farm.db job
  | _ => True

def guardedCycles (sha256 : String → String) : Machine Cycles CycleAction where
  init := (cycles sha256).init
  enabled s a := (cycles sha256).enabled s a ∧ s.Guarded a
  step := Cycles.step sha256

/-- The classification of the job exists, or a call owes it. -/
def Followed (sync : ℕ → Option SyncCall) (db : TaskDb) (job : ℕ) : Prop :=
  Classified db job ∨ ∃ w, ∃ call ∈ sync w, call.point.Owes job

structure Cycles.Inv (s : Cycles) : Prop where
  farm : s.farm.Inv cyclePolicy
  sound : ∀ w, ∀ call ∈ s.sync w, call.point.Sound
  typed : Typed s.farm.db
  followed : ∀ tid r, s.farm.db.tasks.row tid = some r → Ended r →
    ∃ job, r.materializedQueueJobId = some job ∧ Followed s.sync s.farm.db job

theorem not_settles_cyclePolicy {q : ℕ → StateRequest → Prop}
    (hq : ∀ tid req, q tid req → cyclePolicy.changes tid req) {job : Option ℕ} :
    ¬ Settles (cyclePolicy.withChanges q) job := by
  rintro (⟨_, _, hfinish, -⟩ | ⟨tid, ref, label, hchange⟩)
  · exact hfinish
  · exact hq _ _ hchange rfl rfl

theorem setStore_inv {s : TaskFarm} (h : s.Inv P) {Q : Policy} (hc : Changes Q s.db db') (w : ℕ)
    (store : Store) : (s.setStore w store db').Inv P := by
  refine ⟨h.db.changes hc, fun w' req tid row hp => ?_, h.allowed⟩
  obtain ⟨r, hr, hseen⟩ := h.seen w' req tid row hp
  obtain ⟨r', ts, hf⟩ := hc.extends tid r hr
  exact ⟨r', hf.present, hseen.follows hf⟩

variable {sha256 : String → String} {s t : Cycles}

/-- A step of the other calls: what was owed or created stays so. -/
theorem Cycles.Inv.brain (h : s.Inv) {a : FarmTasks.Action}
    (ha : (taskFarm cyclePolicy).enabled s.farm a) :
    Cycles.Inv { s with farm := s.farm.step a } := by
  have hc := h.farm.step_changes ha (q := cyclePolicy.changes) fun tid req hw => by
    obtain ⟨w, _, row, -, hpending⟩ := hw
    exact h.farm.allowed w _ tid req hpending rfl
  refine ⟨h.farm.step ha, h.sound, h.typed.changes hc fun _ hargs => hargs.2,
    fun tid r hr hended => ?_⟩
  rcases Changes.ended hc hr hended with ⟨r₀, hr₀, hended₀, hjob⟩ | hsettles
  · obtain ⟨job, hjob₀, hfollowed⟩ := h.followed tid r₀ hr₀ hended₀
    exact ⟨job, hjob.trans hjob₀, hfollowed.imp_left fun hcl => hcl.extends hc.extends⟩
  · exact absurd hsettles (not_settles_cyclePolicy fun _ _ hq => hq)

theorem SyncReply.point_eq_some {reply : SyncReply} {next : SyncPoint} :
    reply.point = some next ↔ reply = .at next := by
  cases reply <;> simp [SyncReply.point]

/-- The call of one store moves on, and its debt is paid or kept. -/
theorem Followed.update {sync : ℕ → Option SyncCall} {w job : ℕ} {call' : Option SyncCall}
    (h : Followed sync db job) (hc : Extends db db')
    (hpaid : ∀ call ∈ sync w, call.point.Owes job →
      Classified db' job ∨ ∃ next ∈ call', next.point.Owes job) :
    Followed (Function.update sync w call') db' job := by
  rcases h with hcl | ⟨w', call, hcall, howes⟩
  · exact Or.inl (hcl.extends hc)
  by_cases hw : w' = w
  · subst hw
    exact (hpaid call hcall howes).imp_right fun ⟨next, hnext, howes'⟩ =>
      ⟨w', next, by simpa using hnext, howes'⟩
  · exact Or.inr ⟨w', call, by simpa [Function.update_of_ne hw] using hcall, howes⟩

/-- A step of a call: a debt is paid, kept, or new with the task that the step ends. -/
theorem Cycles.Inv.syncStep (h : s.Inv) (w : ℕ) (clock : Readings) :
    (s.step sha256 (.sync w clock)).Inv := by
  simp only [Cycles.step]
  split
  · exact h
  next call hcall =>
  have hsound := h.sound w call hcall
  obtain ⟨r, hr⟩ : ∃ r, Coordinator.syncStep (s.sources sha256) call.now clock
    (s.farm.stores w) s.farm.db call.point = r := ⟨_, rfl⟩
  have hc : Changes (pointPolicy call.point) s.farm.db r.2.2 := hr ▸ syncStep_changes hsound
  rw [hr]
  refine ⟨setStore_inv h.farm hc w _, fun w' call' hcall' => ?_, h.typed.changes hc ?_,
    fun tid row hrow hend => ?_⟩
  · simp only [Function.update_apply] at hcall'
    split_ifs at hcall' with hw
    · obtain ⟨next, hreply, rfl⟩ := Option.map_eq_some_iff.1 hcall'
      exact syncStep_sound (hr ▸ SyncReply.point_eq_some.1 hreply)
    · exact h.sound w' call' hcall'
  · rintro _ ⟨b, label, rfl⟩ job -
    rfl
  · have hcall'' : ∀ next, r.1 = .at next → (⟨call.now, next⟩ : SyncCall) ∈
        r.1.point.map fun next => ⟨call.now, next⟩ := by
      rintro next hreply
      simp [hreply, SyncReply.point]
    subst hr
    rcases syncStep_ended hsound hrow hend with ⟨r₀, hr₀, hend₀, hjob⟩ | ⟨job, next, hjob, hreply, hnew⟩
    · obtain ⟨job, hjob₀, hfollowed⟩ := h.followed tid r₀ hr₀ hend₀
      refine ⟨job, hjob.trans hjob₀, hfollowed.update hc.extends fun call₁ hcall₁ hdebt => ?_⟩
      obtain rfl : call = call₁ := Option.some.inj (hcall.symm.trans hcall₁)
      exact (syncStep_owes h.typed hdebt).imp_right fun ⟨next, hreply, hdebt'⟩ =>
        ⟨_, hcall'' next hreply, hdebt'⟩
    · refine ⟨job, hjob, Or.inr ⟨w, ⟨call.now, next⟩, ?_, hnew⟩⟩
      simpa only [Function.update_self] using hcall'' next hreply

theorem Cycles.Inv.step (h : s.Inv) {a : CycleAction} (ha : (guardedCycles sha256).enabled s a) :
    (s.step sha256 a).Inv := by
  cases a with
  | brain a => exact h.brain ha.1.1
  | compute a => exact ⟨h.farm, h.sound, h.typed, h.followed⟩
  | writeSpec path content => exact ⟨h.farm, h.sound, h.typed, h.followed⟩
  | beginSync w now =>
    obtain ⟨-, hidle⟩ := ha.1
    have hnone : s.sync w = none := Option.isNone_iff_eq_none.1 hidle
    refine ⟨h.farm, fun w' call hcall => ?_, h.typed, fun tid r hr hend => ?_⟩
    · simp only [Cycles.step, Function.update_apply] at hcall
      split_ifs at hcall with hw
      · obtain rfl := Option.some.inj hcall
        trivial
      · exact h.sound w' call hcall
    · obtain ⟨job, hjob, hfollowed⟩ := h.followed tid r hr hend
      exact ⟨job, hjob, hfollowed.update (.refl _) fun call hcall => by simp [hnone] at hcall⟩
  | sync w clock => exact h.syncStep w clock
  | crash w ownerId leaseSeconds floor =>
    have hopen := h.brain (a := .open w ownerId leaseSeconds floor)
      ⟨by simp [Action.caller], trivial⟩
    refine ⟨hopen.farm, fun w' call hcall => ?_, hopen.typed, fun tid r hr hend => ?_⟩
    · simp only [Cycles.step, Function.update_apply] at hcall
      split_ifs at hcall with hw
      · cases hcall
      · exact h.sound w' call hcall
    · obtain ⟨job, hjob, hfollowed⟩ := hopen.followed tid r hr hend
      have hc : Changes cyclePolicy s.farm.db (migratePriorityScale s.farm.db) :=
        migratePriorityScale_changes _
      exact ⟨job, hjob, hfollowed.update (.refl _) fun call hcall hdebt =>
        Or.inl ((ha.2 call hcall job hdebt).extends hc.extends)⟩

theorem cycles_invariant (hs : (guardedCycles sha256).Reachable s) : s.Inv := by
  refine hs.invariant ?_ fun s a _ h ha => h.step ha
  rintro s ⟨hfarm, -, hsync⟩
  have hempty : s.farm.db = TaskDb.empty := hfarm.1
  exact ⟨inv_of_reachable (.init hfarm), by simp [hsync], by simp [Typed, hempty, TaskDb.empty],
    by simp [hempty, TaskDb.empty]⟩

/-- Every finished task is classified, in every run in which no crash falls between the
transaction that ends a task and the creation of its classification. -/
theorem finished_tasks_are_classified (hs : (guardedCycles sha256).Reachable s)
    (hidle : ∀ w, s.sync w = none) {tid : ℕ} {r : TaskRow}
    (hr : s.farm.db.tasks.row tid = some r) (hended : Ended r) :
    ∃ job, r.materializedQueueJobId = some job ∧ Classified s.farm.db job := by
  obtain ⟨job, hjob, hcl | ⟨w, call, hcall, -⟩⟩ := (cycles_invariant hs).followed tid r hr hended
  · exact ⟨job, hjob, hcl⟩
  · simp [hidle w] at hcall

/-! ## A crash after the end of a task -/

theorem reachable_of_guarded (hs : (guardedCycles sha256).Reachable s) :
    (cycles sha256).Reachable s := by
  induction hs with
  | init h => exact .init h
  | step _ ha ih => exact .step ih ha.1

/-- The store whose call of `_sync_completions` an action concerns. -/
def CycleAction.syncs : CycleAction → Option ℕ
  | .beginSync w _ => some w
  | .sync w _ => some w
  | .crash w .. => some w
  | _ => none

theorem step_sync_other {a : CycleAction} {w : ℕ} (h : a.syncs ≠ some w) :
    (s.step sha256 a).sync w = s.sync w := by
  have hne : ∀ w', a.syncs = some w' → w ≠ w' := by
    rintro w' ha rfl
    exact h ha
  cases a with
  | beginSync w' now => exact Function.update_of_ne (hne w' rfl) _ _
  | sync w' clock =>
    simp only [Cycles.step]
    split
    · rfl
    · exact Function.update_of_ne (hne w' rfl) _ _
  | crash w' => exact Function.update_of_ne (hne w' rfl) _ _
  | _ => rfl

theorem run_sync_other {as : List CycleAction} {w : ℕ} (h : ∀ a ∈ as, a.syncs ≠ some w) :
    ((cycles sha256).run s as).sync w = s.sync w := by
  induction as generalizing s with
  | nil => rfl
  | cons a as ih =>
    rw [Machine.run_cons, ih fun b hb => h b (List.mem_cons_of_mem _ hb)]
    exact step_sync_other (h a (by simp))

theorem brain_enabled {w : ℕ} {a : FarmTasks.Action} (hw : connectionOf a = some w)
    (hpending : (s.farm.pending w).isNone = true) (hsync : (s.sync w).isNone = true)
    (hallowed : a.allowed cyclePolicy s.farm) : s.enabled (.brain a) := by
  refine ⟨⟨fun w' hw' => ?_, hallowed⟩, fun w' hw' => ?_⟩
  · have hcaller : connectionOf a = a.caller := by
      cases a <;> first | rfl | cases hw'
    obtain rfl : w = w' := Option.some.inj (hw.symm.trans (hcaller.trans hw'))
    exact Option.isNone_iff_eq_none.1 hpending
  · obtain rfl : w = w' := Option.some.inj (hw.symm.trans hw')
    exact hsync

def specText : String := "\x7b\x7d"

def specSha (payload : String) : String :=
  if payload = specText then "44136fa355b3678a1146ad16f7e8649e94fb4fc21fe77e8310c060f61caaff8a"
  else ""

def specDigest : String := "sha256:" ++ specSha specText

/-- Worker 0 hands the sweep over to job 1, which completes, and begins to look for it. -/
def settledRun : List CycleAction :=
  [.writeSpec "sweep.json" (some specText), .brain (.enqueue sweepTask 100),
    .brain (.claim 0 { now := some 100 } ⟨100, 100⟩),
    .brain (.prepare 0 1 ⟨materializationIdOf 1 1, "sweep.json", specDigest, specText, 100⟩
      (some 101) ⟨101, 101⟩),
    .compute (.ensure ⟨"sweep.json", 100, some (materializationIdOf 1 1), some specDigest⟩
      (fun _ => some specDigest) "t0"),
    .brain (.mark 0 (materializationIdOf 1 1) (.dispatched 1) (some 101) 101),
    .brain (.resume 0 101),
    .brain (.commit 0 1 (materializationIdOf 1 1) 1 (some 101) ⟨101, 101⟩),
    .compute (.claim 0 ⟨some "worker", 30, some 102⟩ ⟨102, 102⟩ "t1"),
    .compute (.begin 0 ⟨1, "worker", 1⟩ (.complete "run-1" (some 103)) 103),
    .compute (.resume 0 ⟨⟨103, 103⟩, "t2", .ok 0⟩),
    .beginSync 0 104, .sync 0 ⟨104, 104⟩, .sync 0 ⟨104, 104⟩, .sync 0 ⟨104, 104⟩,
    .sync 0 ⟨104, 104⟩, .sync 0 ⟨104, 104⟩, .sync 0 ⟨104, 104⟩]

def freshCycles : Cycles := ⟨twoWorkers, ComputeQueue.idleFarm, fun _ => none, fun _ => none⟩

def settledCycles : Cycles := (cycles specSha).run freshCycles settledRun

theorem settledCycles_reachable : (guardedCycles specSha).Reachable settledCycles := by
  refine Machine.reachable_run settledRun ⟨⟨rfl, fun _ => rfl⟩, ⟨rfl, fun _ => rfl⟩, fun _ => rfl⟩
    ⟨⟨trivial, trivial⟩,
      ⟨⟨⟨by simp [Action.caller], Or.inl rfl, ?_⟩, by simp [connectionOf, Action.caller]⟩, trivial⟩,
      ⟨brain_enabled (w := 0) rfl rfl rfl trivial, trivial⟩,
      ⟨brain_enabled (w := 0) rfl rfl rfl fun _ _ => trivial, trivial⟩, ⟨trivial, trivial⟩,
      ⟨brain_enabled (w := 0) rfl rfl rfl trivial, trivial⟩,
      ⟨⟨⟨by simp [Action.caller], trivial⟩, by simp [connectionOf]; rfl⟩, trivial⟩,
      ⟨brain_enabled (w := 0) rfl (by decide +kernel) rfl trivial, trivial⟩, ⟨rfl, trivial⟩,
      ⟨rfl, trivial⟩,
      ⟨trivial, trivial⟩, ⟨⟨?_, rfl⟩, trivial⟩, ⟨trivial, trivial⟩, ⟨trivial, trivial⟩,
      ⟨trivial, trivial⟩, ⟨trivial, trivial⟩, ⟨trivial, trivial⟩, ⟨trivial, trivial⟩, trivial⟩
  · intro job hkey
    have hhead := congrArg (fun key => key.toList.head?) hkey
    have hclassify : (toString "classify::").toList.head? = some 'c' := rfl
    simp [sweepTask, classifyKey, List.head?_append, hclassify] at hhead
  · have hidle : (((cycles specSha).run freshCycles (settledRun.take 11)).farm.pending 0).isNone =
        true := by decide +kernel
    exact Option.isNone_iff_eq_none.1 hidle

/-- The store is opened again, and the next cycle looks for completions to its end. -/
def crashedRun : List CycleAction :=
  [.crash 0 "owner-a" 5 104, .beginSync 0 200, .sync 0 ⟨200, 200⟩, .sync 0 ⟨200, 200⟩,
    .sync 0 ⟨200, 200⟩]

def crashedCycles : Cycles := (cycles specSha).run settledCycles crashedRun

theorem crashedRun_steps : (cycles specSha).Runs settledCycles crashedRun := by
  refine ⟨trivial, ⟨?_, rfl⟩, trivial, trivial, trivial, trivial⟩
  rfl

theorem crashedCycles_reachable : (cycles specSha).Reachable crashedCycles :=
  crashedRun_steps.steps.reachable (reachable_of_guarded settledCycles_reachable)

theorem idle_of_run {as : List CycleAction} (has : ∀ a ∈ as, ∀ w ∈ a.syncs, w = 0)
    (hzero : (((cycles specSha).run settledCycles as).sync 0).isNone = true) (w : ℕ) :
    ((cycles specSha).run settledCycles as).sync w = none := by
  by_cases hw : w = 0
  · exact hw ▸ Option.isNone_iff_eq_none.1 hzero
  · rw [run_sync_other fun a ha h => hw (has a ha w h)]
    refine run_sync_other fun a ha h => hw ?_
    have hsettled : ∀ a ∈ settledRun, ∀ w ∈ a.syncs, w = 0 := by
      simp [settledRun, CycleAction.syncs]
    exact hsettled a ha w h

theorem crashedCycles_row : ∃ r, crashedCycles.farm.db.tasks.row 1 = some r ∧ Ended r := by
  have hfields : (crashedCycles.farm.db.tasks.row 1).map (fun r => (r.state, r.machineReason)) =
      some (.completed, "compute_completed") := by decide +kernel
  obtain ⟨r, hr, hended⟩ := Option.map_eq_some_iff.1 hfields
  exact ⟨r, hr, congrArg Prod.fst hended, congrArg Prod.snd hended⟩

theorem crashedCycles_unclassified (job : ℕ) : ¬ Classified crashedCycles.farm.db job := by
  rintro ⟨k, r, hr, htype, -⟩
  have htypes : crashedCycles.farm.db.tasks.toList.map (·.spec.taskType) = ["run_sweep"] := by
    decide +kernel
  have hmem := List.mem_map_of_mem (f := (·.spec.taskType)) (Table.mem_toList.2 ⟨k, hr⟩)
  rw [htypes] at hmem
  simp [htype] at hmem

/-- The crash leaves the finished sweep without a classification, and the next cycle does not
look at it any more. -/
theorem crash_loses_classification :
    ¬ ∀ (sha256 : String → String) (s : Cycles), (cycles sha256).Reachable s →
      (∀ w, s.sync w = none) → ∀ tid r, s.farm.db.tasks.row tid = some r →
      r.spec.taskType = "run_sweep" → Ended r →
      ∃ job, r.materializedQueueJobId = some job ∧ Classified s.farm.db job := by
  intro h
  obtain ⟨r, hr, hended⟩ := crashedCycles_row
  have htype : (crashedCycles.farm.db.tasks.row 1).map (·.spec.taskType) = some "run_sweep" := by
    decide +kernel
  obtain ⟨job, -, hclassified⟩ := h specSha crashedCycles crashedCycles_reachable
    (idle_of_run (by simp [crashedRun, CycleAction.syncs]) (by decide +kernel)) 1 r hr
    (by simpa [hr] using htype) hended
  exact crashedCycles_unclassified job hclassified

/-- The same call, run to its end. -/
def finishedRun : List CycleAction := [.sync 0 ⟨104, 104⟩, .sync 0 ⟨104, 104⟩, .sync 0 ⟨104, 104⟩]

def finishedCycles : Cycles := (cycles specSha).run settledCycles finishedRun

theorem finished_tasks_are_classified_finishedCycles :
    ∃ job, Classified finishedCycles.farm.db job := by
  have hsteps : (guardedCycles specSha).Runs settledCycles finishedRun :=
    ⟨⟨trivial, trivial⟩, ⟨trivial, trivial⟩, ⟨trivial, trivial⟩, trivial⟩
  have hfields : (finishedCycles.farm.db.tasks.row 1).map (fun r => (r.state, r.machineReason)) =
      some (.completed, "compute_completed") := by decide +kernel
  obtain ⟨r, hr, hended⟩ := Option.map_eq_some_iff.1 hfields
  obtain ⟨job, -, hclassified⟩ := finished_tasks_are_classified
    (hsteps.steps.reachable settledCycles_reachable)
    (idle_of_run (by simp [finishedRun, CycleAction.syncs]) (by decide +kernel)) hr
    ⟨congrArg Prod.fst hended, congrArg Prod.snd hended⟩
  exact ⟨job, hclassified⟩

end ResearchLab.Coordinator
