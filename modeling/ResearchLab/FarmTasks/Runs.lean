import Mathlib
import ResearchLab.Foundation.Machine
import ResearchLab.FarmTasks.Changes

/-!
# Runs of the brain database

Any number of stores, each with a connection of its own, and the transactions of their calls
in any order. Between the read and the write of `_set_state` (and of a mark) a call is
`Pending`, and other stores may commit.
-/
namespace ResearchLab.FarmTasks
open Foundation

inductive Pending
  | materialize (tid queueJobId : ℕ) (now : Option ℚ)
  | change (req : StateRequest) (tid : ℕ) (row : TaskRow)
  | mark (id : String) (mark : Mark)

inductive Reply
  | raised (error : TaskError)
  | waiting (next : Pending)
  | returned

def Reply.pending : Reply → Option Pending
  | .waiting next => some next
  | _ => none

def replyOf {α : Type} (next : α → Reply) : Except TaskError α → Reply
  | .error e => .raised e
  | .ok a => next a

/-- The first statement of `complete_task` and its siblings. -/
def beginChange (tid : ℕ) (req : StateRequest) (now : Option ℚ) (observed : ℚ)
    (store : Store) (db : TaskDb) : Reply × Store :=
  match req with
  | .materialize job =>
      (replyOf (fun _ => .waiting (.materialize tid job now)) (materializeTaskCheck tid db),
        store)
  | _ =>
      let r := setStateCheck tid req.target now observed store db
      (replyOf (fun row => .waiting (.change req tid row)) r.1, r.2)

def beginMark (id : String) (mark : Mark) (now : Option ℚ) (observed : ℚ) (store : Store)
    (db : TaskDb) : Reply × Store :=
  let r := markMaterializationCheck id now observed store db
  (replyOf (fun _ => .waiting (.mark id mark)) r.1, r.2)

/-- The next statement of a pending call. -/
def resume (pending : Pending) (observed : ℚ) (store : Store) (db : TaskDb) :
    Reply × Store × TaskDb :=
  match pending with
  | .materialize tid job now =>
      let r := setStateCheck tid .deferred now observed store db
      (replyOf (fun row => .waiting (.change (.materialize job) tid row)) r.1, r.2, db)
  | .change req tid row =>
      let r := setStateWrite req tid row observed store db
      (replyOf (fun _ => .returned) r.1, r.2)
  | .mark id mark =>
      let r := markMaterializationWrite id mark observed store db
      (replyOf (fun _ => .returned) r.1, r.2)

structure TaskFarm where
  db : TaskDb
  stores : ℕ → Store
  pending : ℕ → Option Pending

inductive Action
  | enqueue (args : EnqueueArgs) (now : ℚ)
  | insert (args : EnqueueArgs) (now : ℚ)
  | reprioritize (tid : ℕ) (priority : ℤ) (sourceEventId : Option String) (now : ℚ)
  | resetBudget (key : String)
  | claim (w : ℕ) (args : ClaimArgs) (clock : Readings)
  | change (w tid : ℕ) (req : StateRequest) (now : Option ℚ) (observed : ℚ)
  | mark (w : ℕ) (id : String) (mark : Mark) (now : Option ℚ) (observed : ℚ)
  | resume (w : ℕ) (observed : ℚ)
  | renew (w tid fence : ℕ) (leaseSeconds now : Option ℚ) (clock : Readings)
  | prepare (w tid : ℕ) (intent : Intent) (now : Option ℚ) (clock : Readings)
  | commit (w tid : ℕ) (id : String) (queueJobId : ℕ) (now : Option ℚ) (clock : Readings)
  | finish (w tid : ℕ) (args : FinishArgs) (now : Option ℚ) (clock : Readings)
  | reconcile (w : ℕ) (reason : String) (now : Option ℚ) (clock : Readings)
  | adopt (w : ℕ) (args : AdoptArgs) (compute : ComputeQueue.QueueDb) (now : Option ℚ)
      (clock : Readings)
  | dispose (w : ℕ) (sha256 : String → String) (entries : List DispositionEntry)
      (now : Option ℚ) (observed : ℚ)
  | open (w : ℕ) (ownerId : String) (leaseSeconds floor : ℚ)

def TaskFarm.setStore (s : TaskFarm) (w : ℕ) (store : Store) (db : TaskDb) : TaskFarm :=
  { s with db := db, stores := Function.update s.stores w store }

def TaskFarm.answer (s : TaskFarm) (w : ℕ) (reply : Reply) (store : Store) (db : TaskDb) :
    TaskFarm :=
  { db := db
    stores := Function.update s.stores w store
    pending := Function.update s.pending w reply.pending }

/-- `insert` and `reprioritize` are the two updates of an `enqueue_task` whose reads are older,
and `open` is also what follows a crash: the call the store was in is lost. -/
def TaskFarm.step (s : TaskFarm) : Action → TaskFarm
  | .enqueue args now => { s with db := (enqueueTask args now s.db).2 }
  | .insert args now => { s with db := (insertTask args now s.db).2 }
  | .reprioritize tid priority src now => { s with db := lowerPriority tid priority src now s.db }
  | .resetBudget key => { s with db := resetClaimBudget key s.db }
  | .claim w args clock =>
      let r := claimNextTask args clock (s.stores w) s.db
      s.setStore w r.2.1 r.2.2
  | .change w tid req now observed =>
      let r := beginChange tid req now observed (s.stores w) s.db
      s.answer w r.1 r.2 s.db
  | .mark w id mark now observed =>
      let r := beginMark id mark now observed (s.stores w) s.db
      s.answer w r.1 r.2 s.db
  | .resume w observed =>
      match s.pending w with
      | none => s
      | some pending =>
          let r := resume pending observed (s.stores w) s.db
          s.answer w r.1 r.2.1 r.2.2
  | .renew w tid fence leaseSeconds now clock =>
      let r := renewTaskClaimToken tid fence leaseSeconds now clock (s.stores w) s.db
      s.setStore w r.2.1 r.2.2
  | .prepare w tid intent now clock =>
      let r := prepareMaterialization tid intent now clock (s.stores w) s.db
      s.setStore w r.2.1 r.2.2
  | .commit w tid id job now clock =>
      let r := commitMaterialization tid id job now clock (s.stores w) s.db
      s.setStore w r.2.1 r.2.2
  | .finish w tid args now clock =>
      let r := finishMaterializedTask tid args now clock (s.stores w) s.db
      s.setStore w r.2.1 r.2.2
  | .reconcile w reason now clock =>
      let r := reconcileOrphanRunning reason now clock (s.stores w) s.db
      s.setStore w r.2.1 r.2.2
  | .adopt w args compute now clock =>
      let r := adoptExpiredMaterialization args compute now clock (s.stores w) s.db
      s.setStore w r.2.1 r.2.2
  | .dispose w sha256 entries now observed =>
      let r := applyDispositionPlan sha256 entries now observed (s.stores w) s.db
      s.setStore w r.2.1 r.2.2
  | .open w ownerId leaseSeconds floor =>
      { s with
        db := migratePriorityScale s.db
        stores := Function.update s.stores w (.open ownerId leaseSeconds floor)
        pending := Function.update s.pending w none }

/-- The store whose connection an action uses, if it must be idle. -/
def Action.caller : Action → Option ℕ
  | .claim w .. | .change w .. | .mark w .. | .renew w .. | .prepare w .. | .commit w ..
  | .finish w .. | .reconcile w .. | .adopt w .. | .dispose w .. => some w
  | _ => none

def Action.allowed (P : Policy) (s : TaskFarm) : Action → Prop
  | .enqueue args _ => P.creates args
  | .insert args _ => P.creates args
  | .change _ tid req _ _ => P.changes tid req
  | .finish _ tid args _ _ => P.finishes tid args
  | .prepare w tid intent _ _ =>
      ∀ fence, (s.stores w).claims tid = some fence →
        P.intends intent.materializationId tid fence
  | _ => True

def taskFarm (P : Policy) : Machine TaskFarm Action where
  init s := s.db = TaskDb.empty ∧ ∀ w, s.pending w = none
  enabled s a := (∀ w ∈ a.caller, s.pending w = none) ∧ a.allowed P s
  step := TaskFarm.step

/-! ## What every run keeps -/

/-- The columns that the update trigger guards, but for the links to results. -/
structure SameAuthority (row row' : TaskRow) : Prop where
  state : row'.state = row.state
  claimOwner : row'.claimOwner = row.claimOwner
  claimExpiresAt : row'.claimExpiresAt = row.claimExpiresAt
  fencingToken : row'.fencingToken = row.fencingToken

/-- The log of one task. -/
def logOf (db : TaskDb) (tid : ℕ) : List TransitionRow :=
  db.transitions.filter fun t => t.taskId = tid

/-- A log that leads from one state to another. -/
def AuditPath : TaskState → List TransitionRow → TaskState → Prop
  | s, [], s' => s = s'
  | s, t :: ts, s' => t.fromState = s ∧ AuditPath t.toState ts s'

theorem AuditPath.append {s s' s'' : TaskState} {ts us : List TransitionRow}
    (h₁ : AuditPath s ts s') (h₂ : AuditPath s' us s'') : AuditPath s (ts ++ us) s'' := by
  induction ts generalizing s with
  | nil => exact h₁ ▸ h₂
  | cons t ts ih => exact ⟨h₁.1, ih h₁.2⟩

/-- What one task went through between two states of the database. -/
structure Follows (db db' : TaskDb) (tid : ℕ) (row row' : TaskRow)
    (suffix : List TransitionRow) : Prop where
  present : db'.tasks.row tid = some row'
  spec : row'.spec = row.spec
  log : logOf db' tid = logOf db tid ++ suffix
  path : AuditPath row.state suffix row'.state
  increasing : (suffix.map TransitionRow.mutationSeq).Pairwise (· < ·)
  above : ∀ t ∈ suffix, row.mutationSeq < t.mutationSeq ∧ t.mutationSeq ≤ row'.mutationSeq
  seq : row.mutationSeq ≤ row'.mutationSeq
  same : row'.mutationSeq = row.mutationSeq → SameAuthority row row'

def Extends (db db' : TaskDb) : Prop :=
  ∀ tid row, db.tasks.row tid = some row → ∃ row' suffix, Follows db db' tid row row' suffix

theorem Extends.refl (db : TaskDb) : Extends db db := fun _ row h =>
  ⟨row, [], h, rfl, by simp, rfl, by simp, by simp, le_rfl, fun _ => ⟨rfl, rfl, rfl, rfl⟩⟩

theorem Extends.trans {db₁ db₂ db₃ : TaskDb} (h₁ : Extends db₁ db₂) (h₂ : Extends db₂ db₃) :
    Extends db₁ db₃ := by
  intro tid row hrow
  obtain ⟨row₂, ts, f₁⟩ := h₁ tid row hrow
  obtain ⟨row₃, us, f₂⟩ := h₂ tid row₂ f₁.present
  refine ⟨row₃, ts ++ us, f₂.present, f₂.spec.trans f₁.spec, ?_, f₁.path.append f₂.path,
    ?_, fun t ht => ?_, f₁.seq.trans f₂.seq, fun heq => ?_⟩
  · rw [f₂.log, f₁.log, List.append_assoc]
  · rw [List.map_append, List.pairwise_append]
    refine ⟨f₁.increasing, f₂.increasing, ?_⟩
    simp only [List.mem_map]
    rintro _ ⟨t, ht, rfl⟩ _ ⟨u, hu, rfl⟩
    exact (f₁.above t ht).2.trans_lt (f₂.above u hu).1
  · rcases List.mem_append.1 ht with ht | ht
    · exact ⟨(f₁.above t ht).1, (f₁.above t ht).2.trans f₂.seq⟩
    · exact ⟨f₁.seq.trans_lt (f₂.above t ht).1, (f₂.above t ht).2⟩
  · have hseq₁ := f₁.seq
    have hseq₂ := f₂.seq
    have s₁ := f₁.same (by omega)
    have s₂ := f₂.same (by omega)
    exact ⟨s₂.state.trans s₁.state, s₂.claimOwner.trans s₁.claimOwner,
      s₂.claimExpiresAt.trans s₁.claimExpiresAt, s₂.fencingToken.trans s₁.fencingToken⟩

variable {P : Policy} {db db' : TaskDb}

/-- A rewrite of one row whose log row, if it has one, is `ts`. -/
theorem Rewrites.extends {tid : ℕ} {r r' : TaskRow} (h : Rewrites db db' tid r r')
    {ts : List TransitionRow} (hlog : db'.transitions = db.transitions ++ ts)
    (htask : ∀ t ∈ ts, t.taskId = tid) (hspec : r'.spec = r.spec)
    (hpath : AuditPath r.state ts r'.state)
    (hts : ∀ t ∈ ts, t.mutationSeq = r.mutationSeq + 1 ∧ r'.mutationSeq = r.mutationSeq + 1)
    (hone : ts.length ≤ 1) (hseq : r.mutationSeq ≤ r'.mutationSeq)
    (hsame : r'.mutationSeq = r.mutationSeq → SameAuthority r r') : Extends db db' := by
  intro k row hrow
  by_cases hk : k = tid
  · subst hk
    obtain rfl : r = row := Option.some.inj (h.present.symm.trans hrow)
    refine ⟨r', ts, by simp [h.rows], hspec, ?_, hpath, ?_, fun t ht => ?_, hseq, hsame⟩
    · have hall : ts.filter (fun t => t.taskId = k) = ts :=
        List.filter_eq_self.2 fun t ht => by simp [htask t ht]
      rw [logOf, hlog, List.filter_append, hall]
      rfl
    · match ts, hone with
      | [], _ => exact .nil
      | [t], _ => exact List.pairwise_singleton _ _
    · have := hts t ht
      omega
  · refine ⟨row, [], by simp [h.rows, hk, hrow], rfl, ?_, rfl, .nil, by simp, le_rfl,
      fun _ => ⟨rfl, rfl, rfl, rfl⟩⟩
    have hnone : ts.filter (fun t => t.taskId = k) = [] := by
      refine List.filter_eq_nil_iff.2 fun t ht => ?_
      simp [htask t ht, Ne.symm hk]
    rw [logOf, hlog, List.filter_append, hnone]
    simp [logOf]

theorem extends_of_rows (hrows : ∀ k r, db.tasks.row k = some r → db'.tasks.row k = some r)
    (hlog : db'.transitions = db.transitions) : Extends db db' := fun k row hrow =>
  ⟨row, [], hrows k row hrow, rfl, by simp [logOf, hlog], rfl, .nil, by simp, le_rfl,
    fun _ => ⟨rfl, rfl, rfl, rfl⟩⟩

theorem TaskMove.spec {tid : ℕ} {r r' : TaskRow} (h : TaskMove P tid r r') : r'.spec = r.spec := by
  cases h with
  | claimed => rfl
  | @changed req _ _ _ => cases req <;> rfl
  | reaped => rfl
  | skipped => rfl
  | finished => rfl

theorem TaskMove.seq {tid : ℕ} {r r' : TaskRow} (h : TaskMove P tid r r') :
    r'.mutationSeq = r.mutationSeq + 1 := by
  cases h <;> rfl

/-- A rewrite that the log records by one row. -/
theorem Rewrites.extends_logged {tid : ℕ} {r r' : TaskRow} (h : Rewrites db db' tid r r')
    {t : TransitionRow} (hlog : db'.transitions = db.transitions ++ [t])
    (logged : Logs t tid r r') (hspec : r'.spec = r.spec)
    (hseq : r'.mutationSeq = r.mutationSeq + 1) : Extends db db' := by
  refine h.extends hlog (by simp [logged.task]) hspec ⟨logged.source, logged.target⟩ ?_ (by simp)
    (by omega) (by omega)
  simpa using ⟨logged.seq, hseq⟩

/-- The step lemma of the audit log. -/
theorem Change.extends (h : Change P db db') : Extends db db' := by
  cases h with
  | @inserted args tid now _ absent rows log _ =>
    refine extends_of_rows (fun k r hr => ?_) log
    have hk : k ≠ tid := by
      rintro rfl
      simp [absent] at hr
    simp [rows, hk, hr]
  | touched rewrites log _ =>
    exact rewrites.extends (log.trans (List.append_nil _).symm) (by simp) rfl rfl (by simp) (by simp)
      le_rfl fun _ => ⟨rfl, rfl, rfl, rfl⟩
  | @renewed tid r expires now running claimed rewrites log outbox =>
    refine rewrites.extends (log.trans (List.append_nil _).symm) (by simp) rfl rfl (by simp) (by simp)
      (Nat.le_succ _) fun h => ?_
    simp [renewedTask] at h
  | moved rewrites move logged log _ =>
    exact rewrites.extends_logged log logged move.spec move.seq
  | bound parks logged log => exact parks.rewrites.extends_logged log logged rfl rfl
  | prepared tasks log => exact extends_of_rows (by simp [tasks]) log
  | marked tasks log => exact extends_of_rows (by simp [tasks]) log
  | charged tasks log => exact extends_of_rows (by simp [tasks]) log

theorem Changes.extends (h : Changes P db db') : Extends db db' := by
  induction h with
  | refl => exact .refl _
  | tail _ hc ih => exact ih.trans hc.extends

/-! ## Rows -/

structure RowInv (r : TaskRow) : Prop where
  fenced : r.mutationProtocol = "fenced.v2"
  owner : r.claimOwner.isSome = true ↔ r.state = .running
  expiry : r.claimExpiresAt.isSome = true ↔ r.state = .running

structure DbInv (db : TaskDb) : Prop where
  keyed : Keyed db
  logged : ∀ t ∈ db.transitions, (db.tasks.row t.taskId).isSome = true
  rows : ∀ k r, db.tasks.row k = some r → RowInv r

theorem StateRequest.target_ne_running (req : StateRequest) : req.target ≠ .running := by
  cases req <;> simp [target]

theorem TaskMove.rowInv {tid : ℕ} {r r' : TaskRow} (hm : TaskMove P tid r r') : RowInv r' := by
  cases hm with
  | claimed => exact ⟨rfl, by simp [claimedTask], by simp [claimedTask]⟩
  | @changed req _ _ _ =>
    exact ⟨rfl, by simp [changedTask, req.target_ne_running],
      by simp [changedTask, req.target_ne_running]⟩
  | reaped => exact ⟨rfl, by simp [reapedTask], by simp [reapedTask]⟩
  | skipped => exact ⟨rfl, by simp [skippedTask], by simp [skippedTask]⟩
  | @finished args now _ waiting =>
    obtain ⟨-, -, howner, hexpiry⟩ := of_decide_eq_true waiting
    have hne : args.outcome.target ≠ .running := by
      cases args.outcome <;> simp [QueueOutcome.target]
    exact ⟨rfl, by simp [finishedTask, howner, hne], by simp [finishedTask, hexpiry, hne]⟩

theorem Change.row {k : ℕ} {r' : TaskRow} (h : Change P db db')
    (hinv : ∀ r, db.tasks.row k = some r → RowInv r ∧ r.taskId = k)
    (hr' : db'.tasks.row k = some r') : RowInv r' ∧ r'.taskId = k := by
  have hold : ∀ {tid : ℕ} {r s : TaskRow}, Rewrites db db' tid r s →
      (RowInv r ∧ r.taskId = tid → RowInv s ∧ s.taskId = tid) → RowInv r' ∧ r'.taskId = k := by
    intro tid r s hw hs
    rw [hw.rows] at hr'
    split_ifs at hr' with hk
    · subst hk
      obtain rfl := Option.some.inj hr'
      exact hs (hinv r hw.present)
    · exact hinv r' hr'
  cases h with
  | @inserted args tid now creates absent rows _ _ =>
    rw [rows] at hr'
    split_ifs at hr' with hk
    · subst hk
      obtain rfl := Option.some.inj hr'
      have hne : args.state ≠ .running := by
        rcases P.waits args creates with h | h | h <;> simp [h]
      exact ⟨⟨rfl, by simp [newTask, hne], by simp [newTask, hne]⟩, rfl⟩
    · exact hinv r' hr'
  | touched rewrites => exact hold rewrites fun h => ⟨⟨h.1.fenced, h.1.owner, h.1.expiry⟩, h.2⟩
  | renewed running claimed rewrites =>
    exact hold rewrites fun h =>
      ⟨⟨rfl, h.1.owner, by simp [renewedTask, running]⟩, h.2⟩
  | moved rewrites move =>
    refine hold rewrites fun h => ⟨move.rowInv, ?_⟩
    cases move with
    | @changed req _ _ _ => cases req <;> exact h.2
    | _ => exact h.2
  | bound parks =>
    exact hold parks.rewrites fun h => ⟨⟨rfl, by simp [parkedTask], by simp [parkedTask]⟩, h.2⟩
  | prepared tasks => exact hinv r' (tasks ▸ hr')
  | marked tasks => exact hinv r' (tasks ▸ hr')
  | charged tasks => exact hinv r' (tasks ▸ hr')

theorem Change.transitions (h : Change P db db') :
    db'.transitions = db.transitions ∨ ∃ t r, db'.transitions = db.transitions ++ [t] ∧
      db.tasks.row t.taskId = some r := by
  cases h with
  | inserted _ _ _ log => exact Or.inl log
  | touched _ log => exact Or.inl log
  | renewed _ _ _ log => exact Or.inl log
  | moved rewrites _ logged log => exact Or.inr ⟨_, _, log, logged.task ▸ rewrites.present⟩
  | bound parks logged log => exact Or.inr ⟨_, _, log, logged.task ▸ parks.rewrites.present⟩
  | prepared _ log => exact Or.inl log
  | marked _ log => exact Or.inl log
  | charged _ log => exact Or.inl log

theorem DbInv.change (h : DbInv db) (hc : Change P db db') : DbInv db' := by
  have hrow : ∀ k r, db'.tasks.row k = some r → RowInv r ∧ r.taskId = k := fun k r hr =>
    hc.row (fun r hr => ⟨h.rows k r hr, h.keyed k r hr⟩) hr
  have hkept : ∀ k, (db.tasks.row k).isSome = true → (db'.tasks.row k).isSome = true := by
    intro k hk
    obtain ⟨r, hr⟩ := Option.isSome_iff_exists.1 hk
    obtain ⟨r', _, hf⟩ := hc.extends k r hr
    simp [hf.present]
  refine ⟨fun k r hr => (hrow k r hr).2, fun t ht => ?_, fun k r hr => (hrow k r hr).1⟩
  rcases hc.transitions with hlog | ⟨u, r, hlog, hu⟩
  · exact hkept _ (h.logged t (hlog ▸ ht))
  · rw [hlog] at ht
    rcases List.mem_append.1 ht with ht | ht
    · exact hkept _ (h.logged t ht)
    · obtain rfl := List.mem_singleton.1 ht
      exact hkept _ (by simp [hu])

theorem DbInv.changes (h : DbInv db) (hc : Changes P db db') : DbInv db' := by
  induction hc with
  | refl => exact h
  | tail _ hstep ih => exact ih.change hstep

/-! ## States of the farm -/

/-- What a call read, seen from the row as it is now. -/
structure Seen (row r : TaskRow) : Prop where
  spec : r.spec = row.spec
  seq : row.mutationSeq ≤ r.mutationSeq
  same : r.mutationSeq = row.mutationSeq → SameAuthority row r
  unclaimed : row.claimOwner = none → row.state ≠ .running

theorem Seen.follows {row r r' : TaskRow} {tid : ℕ} {ts : List TransitionRow}
    (h : Seen row r) (hf : Follows db db' tid r r' ts) : Seen row r' := by
  refine ⟨hf.spec.trans h.spec, h.seq.trans hf.seq, fun heq => ?_, h.unclaimed⟩
  have h₁ := h.seq
  have h₂ := hf.seq
  have s₁ := h.same (by omega)
  have s₂ := hf.same (by omega)
  exact ⟨s₂.state.trans s₁.state, s₂.claimOwner.trans s₁.claimOwner,
    s₂.claimExpiresAt.trans s₁.claimExpiresAt, s₂.fencingToken.trans s₁.fencingToken⟩

/-- What the call will write through `_set_state`. -/
def Pending.change? : Pending → Option (ℕ × StateRequest)
  | .materialize tid job _ => some (tid, .materialize job)
  | .change req tid _ => some (tid, req)
  | .mark .. => none

structure TaskFarm.Inv (P : Policy) (s : TaskFarm) : Prop where
  db : DbInv s.db
  seen : ∀ w req tid row, s.pending w = some (.change req tid row) →
    ∃ r, s.db.tasks.row tid = some r ∧ Seen row r
  allowed : ∀ w p tid req, s.pending w = some p → p.change? = some (tid, req) →
    P.changes tid req

/-- The action is the write of `_set_state`. -/
def TaskFarm.Writes (s : TaskFarm) (a : Action) (tid : ℕ) (req : StateRequest) : Prop :=
  ∃ w observed row, a = .resume w observed ∧ s.pending w = some (.change req tid row)

/-- Every action is a chain of changes, and only a write of `_set_state` sets a state. -/
theorem TaskFarm.Inv.step_changes {s : TaskFarm} (h : s.Inv P) {a : Action}
    (ha : (taskFarm P).enabled s a) {q : ℕ → StateRequest → Prop}
    (hq : ∀ tid req, s.Writes a tid req → q tid req) :
    Changes (P.withChanges q) s.db (s.step a).db := by
  obtain ⟨-, ha⟩ := ha
  cases a with
  | enqueue args now => exact enqueueTask_changes (P := P.withChanges q) ha now s.db
  | insert args now => exact insertTask_changes (P := P.withChanges q) ha now s.db
  | reprioritize => exact lowerPriority_changes ..
  | resetBudget => exact resetClaimBudget_changes ..
  | claim => exact claimNextTask_changes h.db.keyed ..
  | change => exact .refl
  | mark => exact .refl
  | resume w observed =>
    simp only [TaskFarm.step]
    split
    · exact .refl
    · next p hp =>
      cases p with
      | materialize => exact .refl
      | change req tid row =>
        obtain ⟨r, -, hseen⟩ := h.seen w req tid row hp
        exact setStateWrite_changes (P := P.withChanges q)
          (hq tid req ⟨w, observed, row, rfl, hp⟩) hseen.unclaimed ..
      | mark => exact markMaterializationWrite_changes ..
  | renew => exact renewTaskClaimToken_changes ..
  | prepare w tid intent now clock =>
    exact prepareMaterialization_changes (P := P.withChanges q) tid intent now clock _ _ ha
  | commit => exact commitMaterialization_changes ..
  | finish => exact finishMaterializedTask_changes (P := P.withChanges q) ha ..
  | reconcile => exact reconcileOrphanRunning_changes ..
  | adopt => exact adoptExpiredMaterialization_changes ..
  | dispose => exact applyDispositionPlan_changes ..
  | «open» => exact migratePriorityScale_changes _

theorem setStateCheck_ok {tid : ℕ} {target : TaskState} {now : Option ℚ} {observed : ℚ}
    {store : Store} {row : TaskRow}
    (h : (setStateCheck tid target now observed store db).1 = .ok row) :
    db.tasks.row tid = some row ∧ (row.claimOwner = none → row.state ≠ .running) := by
  simp only [setStateCheck] at h
  split at h
  · cases h
  next r hr =>
  split at h
  · next hnone =>
    split_ifs at h with hrun
    obtain rfl := Except.ok.inj h
    exact ⟨hr, fun _ hstate => hrun (Or.inl hstate)⟩
  · next hsome =>
    split_ifs at h
    obtain rfl := Except.ok.inj h
    exact ⟨hr, by simp [hsome]⟩

theorem replyOf_pending {α : Type} {next : α → Reply} {r : Except TaskError α} {p : Pending}
    (h : (replyOf next r).pending = some p) : ∃ a, r = .ok a ∧ (next a).pending = some p := by
  cases r with
  | error e => simp [replyOf, Reply.pending] at h
  | ok a => exact ⟨a, rfl, h⟩

/-- A call that goes on to the write of `_set_state` has just read its row. -/
def Fresh (p : Pending) (db : TaskDb) : Prop :=
  ∀ req tid row, p = .change req tid row →
    db.tasks.row tid = some row ∧ (row.claimOwner = none → row.state ≠ .running)

theorem beginChange_fresh {tid : ℕ} {req : StateRequest} {now : Option ℚ} {observed : ℚ}
    {store : Store} {p : Pending}
    (h : (beginChange tid req now observed store db).1.pending = some p) :
    Fresh p db ∧ p.change? = some (tid, req) := by
  have hcheck : ∀ req : StateRequest, (replyOf (fun row => .waiting (.change req tid row))
      (setStateCheck tid req.target now observed store db).1).pending = some p →
        Fresh p db ∧ p.change? = some (tid, req) := by
    intro req h
    obtain ⟨row, hrow, hp⟩ := replyOf_pending h
    obtain rfl : Pending.change req tid row = p := by simpa [Reply.pending] using hp
    refine ⟨?_, rfl⟩
    rintro _ _ _ ⟨⟩
    exact setStateCheck_ok hrow
  cases req with
  | materialize job =>
    obtain ⟨_, -, hp⟩ := replyOf_pending h
    obtain rfl : Pending.materialize tid job now = p := by simpa [Reply.pending] using hp
    exact ⟨by rintro _ _ _ ⟨⟩, rfl⟩
  | _ => exact hcheck _ h

theorem resume_fresh {p p' : Pending} {observed : ℚ} {store : Store}
    (h : (resume p observed store db).1.pending = some p') :
    Fresh p' (resume p observed store db).2.2 ∧ p'.change? = p.change? := by
  cases p with
  | materialize tid job now =>
    obtain ⟨row, hrow, hp⟩ := replyOf_pending h
    obtain rfl : Pending.change (.materialize job) tid row = p' := by
      simpa [Reply.pending] using hp
    refine ⟨?_, rfl⟩
    rintro _ _ _ ⟨⟩
    exact setStateCheck_ok hrow
  | change =>
    obtain ⟨_, -, hp⟩ := replyOf_pending h
    simp [Reply.pending] at hp
  | mark =>
    obtain ⟨_, -, hp⟩ := replyOf_pending h
    simp [Reply.pending] at hp

theorem beginMark_changes {id : String} {mark : Mark} {now : Option ℚ} {observed : ℚ}
    {store : Store} {p : Pending}
    (h : (beginMark id mark now observed store db).1.pending = some p) : p = .mark id mark := by
  obtain ⟨_, -, hp⟩ := replyOf_pending h
  exact (Option.some.inj hp).symm

/-- The pending calls after an action: as before, or the one that the action began. -/
theorem TaskFarm.Inv.step_pending {s : TaskFarm} (h : s.Inv P) {a : Action}
    (ha : (taskFarm P).enabled s a) {w : ℕ} {p : Pending}
    (hp : (s.step a).pending w = some p) :
    s.pending w = some p ∨ (Fresh p (s.step a).db ∧
      ∀ tid req, p.change? = some (tid, req) → P.changes tid req) := by
  cases a with
  | change w' tid req now observed =>
    simp only [TaskFarm.step, TaskFarm.answer, Function.update_apply] at hp
    split_ifs at hp
    · obtain ⟨hfresh, hchange⟩ := beginChange_fresh hp
      refine Or.inr ⟨hfresh, fun tid' req' heq => ?_⟩
      obtain ⟨rfl, rfl⟩ : tid = tid' ∧ req = req' := by simpa [hchange] using heq
      exact ha.2
    · exact Or.inl hp
  | mark w' id mark now observed =>
    simp only [TaskFarm.step, TaskFarm.answer, Function.update_apply] at hp
    split_ifs at hp
    · obtain rfl := beginMark_changes hp
      exact Or.inr ⟨by rintro _ _ _ ⟨⟩, by rintro _ _ ⟨⟩⟩
    · exact Or.inl hp
  | resume w' observed =>
    simp only [TaskFarm.step] at hp ⊢
    split at hp
    · exact Or.inl hp
    · next p' hp' =>
      simp only [TaskFarm.answer, Function.update_apply] at hp
      split_ifs at hp
      · obtain ⟨hfresh, hchange⟩ := resume_fresh hp
        exact Or.inr ⟨hfresh, fun tid req heq => h.allowed w' p' tid req hp' (hchange ▸ heq)⟩
      · exact Or.inl hp
  | «open» w' ownerId leaseSeconds floor =>
    simp only [TaskFarm.step, Function.update_apply] at hp
    split_ifs at hp
    exact Or.inl hp
  | _ => exact Or.inl hp

theorem TaskFarm.Inv.step {s : TaskFarm} (h : s.Inv P) {a : Action}
    (ha : (taskFarm P).enabled s a) : (s.step a).Inv P := by
  have hc := h.step_changes ha (q := fun _ _ => True) fun _ _ _ => trivial
  refine ⟨h.db.changes hc, fun w req tid row hp => ?_, fun w p tid req hp hchange => ?_⟩
  · rcases h.step_pending ha hp with hp | ⟨hfresh, -⟩
    · obtain ⟨r, hr, hseen⟩ := h.seen w req tid row hp
      obtain ⟨r', ts, hf⟩ := hc.extends tid r hr
      exact ⟨r', hf.present, hseen.follows hf⟩
    · obtain ⟨hrow, hclaim⟩ := hfresh req tid row rfl
      exact ⟨row, hrow, rfl, le_rfl, fun _ => ⟨rfl, rfl, rfl, rfl⟩, hclaim⟩
  · rcases h.step_pending ha hp with hp | ⟨-, hallowed⟩
    · exact h.allowed w p tid req hp hchange
    · exact hallowed tid req hchange

theorem inv_of_reachable {s : TaskFarm} (hs : (taskFarm P).Reachable s) : s.Inv P := by
  refine hs.invariant ?_ fun s a _ h ha => h.step ha
  rintro s ⟨hdb, hpending⟩
  refine ⟨?_, by simp [hpending], by simp [hpending]⟩
  rw [hdb]
  exact ⟨by simp [Keyed, TaskDb.empty], by simp [TaskDb.empty], by simp [TaskDb.empty]⟩

/-- Every run extends every task and its log. -/
theorem run_extends {s t : TaskFarm} {as : List Action} (hst : (taskFarm P).Steps s as t)
    (hs : (taskFarm P).Reachable s) : Extends s.db t.db :=
  hst.relates (R := fun s t => Extends s.db t.db) (fun s => .refl s.db)
    (fun _ _ _ => Extends.trans)
    (fun _ _ hr ha => ((inv_of_reachable hr).step_changes ha (q := fun _ _ => True) fun _ _ _ =>
      trivial).extends) hs

end ResearchLab.FarmTasks
