import Mathlib
import ResearchLab.Foundation.Queries
import ResearchLab.FarmTasks.Runs

/-!
# Fair claim lanes

The calls of `claim_next_task` that share a `fairness_key` are a lane: its cursor counts them, and
every `fresh_every`-th of them prefers fresh tasks. The others work off the debt, so that a task
waits for the tasks ahead of it, whatever arrives behind it.
-/
namespace ResearchLab.FarmTasks
open Foundation

/-- Rows are kept under their task ids, which ascend as they are generated. -/
structure TaskDb.Ordered (db : TaskDb) : Prop where
  keyed : Keyed db
  ascending : db.tasks.Ascending

/-! ## Lanes -/

/-- A call of the lane, or a statement of `enqueue_task`. -/
def LaneAction (key : String) (freshEvery : ℕ) : Action → Prop
  | .claim _ args _ => args.fairnessKey = some key ∧ args.freshEvery = freshEvery
  | .enqueue _ _ | .insert _ _ | .reprioritize _ _ _ _ => True
  | _ => False

/-- Any number of workers that claim of one lane, on any brain database. -/
def laneFarm (key : String) (freshEvery : ℕ) : Machine TaskFarm Action where
  init s := s.db.Ordered
  enabled _ := LaneAction key freshEvery
  step := TaskFarm.step

@[simp] theorem laneFarm_step (key : String) (freshEvery : ℕ) (s : TaskFarm) (a : Action) :
    (laneFarm key freshEvery).step s a = s.step a := rfl

/-- A successful claim of the lane: the cursor that it found and the task that it took. -/
structure LanePick where
  cursor : ℕ
  taskId : ℕ
  deriving DecidableEq

def lanePick (key : String) (s : TaskFarm) : Action → Option LanePick
  | .claim w args clock =>
      match (claimNextTask args clock (s.stores w) s.db).1 with
      | .ok (some row) => some ⟨s.db.claimFairness key, row.taskId⟩
      | _ => none
  | _ => none

/-- The successful claims of a run. -/
def lanePicks (key : String) : TaskFarm → List Action → List LanePick
  | _, [] => []
  | s, a :: as => (lanePick key s a).toList ++ lanePicks key (s.step a) as

/-- The claim prefers fresh tasks. -/
def LanePick.fresh (freshEvery : ℕ) (p : LanePick) : Bool := decide (p.cursor % freshEvery = 0)

/-! ## What one call of a lane does -/

/-- The order of a claim without its last column, the task id. -/
def claimKey (rank : TaskRow → ℕ) (row : TaskRow) : ℤ ×ₗ (ℕ ×ₗ ℚ) :=
  toLex (row.priority, toLex (rank row, row.createdAt))

theorem claimOrder_iff {rank : TaskRow → ℕ} (a b : TaskRow) :
    claimOrder rank a b = true ↔ claimKey rank a < claimKey rank b := by
  simp only [claimOrder, claimKey, decide_eq_true_eq, Prod.Lex.toLex_lt_toLex]

/-- The age of a task: when it was created, and its id. -/
def ageKey (row : TaskRow) : ℚ ×ₗ ℕ := toLex (row.createdAt, row.taskId)

/-- The times of a claim: before the write lock, and under it. -/
def claimTimes (args : ClaimArgs) (clock : Readings) (store : Store) : ℚ × ℚ :=
  let before := effectiveNow store args.now clock.first
  (before, effectiveNow (store.advance before) (some before) clock.second)

/-- What a claim makes of the task that it takes. -/
def takenTask (args : ClaimArgs) (clock : Readings) (store : Store) : TaskRow → TaskRow :=
  claimedTask store.ownerId (claimTimes args clock store).2
    ((claimTimes args clock store).2 + store.leaseSeconds)

/-- The task that the claim takes out of an ordered database. -/
structure Takes (lane : Option (String × ℚ)) (args : ClaimArgs) (times : ℚ × ℚ) (db : TaskDb)
    (row : TaskRow) : Prop where
  present : db.tasks.row row.taskId = some row
  ready : eligible args times.1 db row = true
  least : ∀ r ∈ db.tasks.toList, eligible args times.1 db r = true →
    claimKey (laneRank lane args.freshEvery times.2 db) row ≤
      claimKey (laneRank lane args.freshEvery times.2 db) r
  first : ∀ r ∈ db.tasks.toList, eligible args times.1 db r = true →
    claimKey (laneRank lane args.freshEvery times.2 db) r =
      claimKey (laneRank lane args.freshEvery times.2 db) row → row.taskId ≤ r.taskId

/-- A call of the lane fails and leaves the tables alone, or takes a task and moves the cursor. -/
theorem claim_cases {key : String} {args : ClaimArgs} {db : TaskDb} (hdb : db.Ordered)
    (hkey : args.fairnessKey = some key) (clock : Readings) (store : Store) :
    ((∀ row, (claimNextTask args clock store db).1 ≠ .ok (some row)) ∧
      (claimNextTask args clock store db).2.2 = db) ∨
    ∃ window row, args.freshnessWindowSeconds = some window ∧
      Takes (some (key, window)) args (claimTimes args clock store) db row ∧
      (claimNextTask args clock store db).1 = .ok (some (takenTask args clock store row)) ∧
      (claimNextTask args clock store db).2.2.tasks =
        db.tasks.modify row.taskId (takenTask args clock store) ∧
      (claimNextTask args clock store db).2.2.claimFairness =
        Function.update db.claimFairness key (db.claimFairness key + 1) := by
  have hlanes : ∀ lane, fairLane args = .ok lane →
      ∃ window, args.freshnessWindowSeconds = some window ∧ lane = some (key, window) := by
    intro lane hlane
    rw [fairLane, hkey] at hlane
    cases hwindow : args.freshnessWindowSeconds with
    | none => simp [hwindow] at hlane
    | some window =>
      simp only [hwindow] at hlane
      split_ifs at hlane
      exact ⟨window, rfl, (Except.ok.inj hlane).symm⟩
  simp only [claimNextTask]
  cases hlane : fairLane args with
  | error e => exact .inl ⟨by simp, rfl⟩
  | ok lane =>
    obtain ⟨window, hwindow, rfl⟩ := hlanes lane hlane
    dsimp only
    split_ifs
    · exact .inl ⟨by simp, rfl⟩
    split
    · exact .inl ⟨by simp, rfl⟩
    next row hmin =>
    split
    · exact .inl ⟨by simp, rfl⟩
    next tasks hcas =>
    obtain ⟨r, hr, -, rfl⟩ := Table.compareAndSet_eq_some.1 hcas
    obtain ⟨hmem, hready⟩ := List.mem_filter.1 (firstMin_mem hmin)
    obtain ⟨k, hk⟩ := Table.mem_toList.1 hmem
    obtain rfl := hdb.keyed k row hk
    have hsorted := (hdb.ascending.toList hdb.keyed).filter
      (eligible args (claimTimes args clock store).1 db)
    have htaken : (db.tasks.modify row.taskId (takenTask args clock store)).row row.taskId =
        some (takenTask args clock store row) := by
      rw [Table.modify_row_self, hk]
      rfl
    refine .inr ⟨window, row, hwindow, ⟨hk, hready, fun x hx hxe => ?_,
      fun x hx hxe hsame => ?_⟩, congrArg Except.ok htaken, rfl, rfl⟩
    · exact firstMin_le claimOrder_iff hmin x (List.mem_filter.2 ⟨hx, hxe⟩)
    · rcases firstMin_first claimOrder_iff hsorted hmin x (List.mem_filter.2 ⟨hx, hxe⟩) hsame with
        rfl | hlt
      · exact le_rfl
      · exact hlt.le

/-- What an action of a lane does: a claim takes a task, an `enqueue_task` inserts one or makes one
more urgent, or nothing changes. -/
inductive LaneStep (key : String) (s : TaskFarm) (a : Action) : Prop
  | still (pick : lanePick key s a = none) (tasks : (s.step a).db.tasks = s.db.tasks)
      (cursor : (s.step a).db.claimFairness key = s.db.claimFairness key)
  | taken (w : ℕ) (args : ClaimArgs) (clock : Readings) (window : ℚ) (row : TaskRow)
      (call : a = .claim w args clock) (within : args.freshnessWindowSeconds = some window)
      (takes : Takes (some (key, window)) args (claimTimes args clock (s.stores w)) s.db row)
      (pick : lanePick key s a = some ⟨s.db.claimFairness key, row.taskId⟩)
      (tasks : (s.step a).db.tasks =
        s.db.tasks.modify row.taskId (takenTask args clock (s.stores w)))
      (cursor : (s.step a).db.claimFairness key = s.db.claimFairness key + 1)
  | inserted (args : EnqueueArgs) (now : ℚ) (call : a = .enqueue args now ∨ a = .insert args now)
      (pick : lanePick key s a = none)
      (tasks : (s.step a).db.tasks =
        s.db.tasks.insert s.db.tasks.nextKey (newTask args s.db.tasks.nextKey now))
      (cursor : (s.step a).db.claimFairness key = s.db.claimFairness key)
  | touched (tid : ℕ) (priority : ℤ) (src : Option String) (now : ℚ)
      (call : a = .reprioritize tid priority src now ∨ ∃ args row, a = .enqueue args now ∧
        priority = args.priority ∧ s.db.tasks.row tid = some row ∧ priority < row.priority)
      (pick : lanePick key s a = none)
      (tasks : (s.step a).db.tasks =
        s.db.tasks.modify tid (reprioritizedTask priority src now))
      (cursor : (s.step a).db.claimFairness key = s.db.claimFairness key)

theorem insertTask_cases (args : EnqueueArgs) (now : ℚ) (db : TaskDb) :
    (insertTask args now db).2 = db ∨ (insertTask args now db).2 =
      { db with tasks := db.tasks.insert db.tasks.nextKey (newTask args db.tasks.nextKey now) } := by
  rw [insertTask]
  split_ifs
  · exact .inl rfl
  · exact .inr rfl

theorem laneStep {key : String} {freshEvery : ℕ} {s : TaskFarm} {a : Action} (hs : s.db.Ordered)
    (ha : LaneAction key freshEvery a) : LaneStep key s a := by
  cases a with
  | claim w args clock =>
    rcases claim_cases hs ha.1 clock (s.stores w) with
      ⟨hfailed, hsame⟩ | ⟨window, row, hwindow, htakes, hok, htasks, hcursor⟩
    · refine .still ?_ (congrArg TaskDb.tasks hsame)
        (congrArg (fun db => TaskDb.claimFairness db key) hsame)
      cases hresult : (claimNextTask args clock (s.stores w) s.db).1 with
      | error e => simp only [lanePick, hresult]
      | ok found =>
        cases found with
        | none => simp only [lanePick, hresult]
        | some row => exact absurd hresult (hfailed row)
    · refine .taken w args clock window row rfl hwindow htakes ?_ htasks ?_
      · simp only [lanePick, hok]
        rfl
      · exact (congrFun hcursor key).trans (Function.update_self ..)
  | enqueue args now =>
    have hnow : (s.step (.enqueue args now)).db = (enqueueTask args now s.db).2 := rfl
    rw [enqueueTask] at hnow
    cases hactive : activeTask args.spec.taskKey s.db with
    | some active =>
      simp only [hactive] at hnow
      split_ifs at hnow with hless
      · obtain ⟨k, hk⟩ := Table.mem_toList.1 (List.mem_of_find?_eq_some hactive)
        obtain rfl := hs.keyed k active hk
        exact .touched active.taskId args.priority args.sourceEventId now
          (.inr ⟨args, active, rfl, rfl, hk, hless⟩) rfl (by rw [hnow]; rfl) (by rw [hnow]; rfl)
      · exact .still rfl (by rw [hnow]) (by rw [hnow])
    | none =>
      simp only [hactive] at hnow
      cases hdone : (lastCompleted args.spec.taskKey s.db).filter fun r =>
          decide (now - r.updatedAt < args.ttlSeconds) with
      | some done =>
        simp only [hdone] at hnow
        exact .still rfl (by rw [hnow]) (by rw [hnow])
      | none =>
        simp only [hdone] at hnow
        have hinsert : (s.step (.enqueue args now)).db = (insertTask args now s.db).2 := by
          rw [hnow]
          rcases insertTask args now s.db with ⟨_ | _, _⟩ <;> rfl
        rcases insertTask_cases args now s.db with h | h
        · rw [h] at hinsert
          exact .still rfl (by rw [hinsert]) (by rw [hinsert])
        · rw [h] at hinsert
          exact .inserted args now (.inl rfl) rfl (by rw [hinsert]) (by rw [hinsert])
  | insert args now =>
    have hinsert : (s.step (.insert args now)).db = (insertTask args now s.db).2 := rfl
    rcases insertTask_cases args now s.db with h | h
    · rw [h] at hinsert
      exact .still rfl (by rw [hinsert]) (by rw [hinsert])
    · rw [h] at hinsert
      exact .inserted args now (.inr rfl) rfl (by rw [hinsert]) (by rw [hinsert])
  | reprioritize tid priority src now =>
    exact .touched tid priority src now (.inl rfl) rfl rfl rfl
  | _ => exact absurd ha id

/-! ## The cursor -/

variable {key : String} {freshEvery : ℕ} {s t : TaskFarm} {a : Action} {as : List Action}

theorem LaneStep.ordered (h : LaneStep key s a) (hs : s.db.Ordered) : (s.step a).db.Ordered := by
  have hmodify : ∀ tid f, (∀ r : TaskRow, (f r).taskId = r.taskId) →
      (s.step a).db.tasks = s.db.tasks.modify tid f → (s.step a).db.Ordered := by
    intro tid f hf htasks
    refine ⟨fun k r hr => ?_, htasks ▸ hs.ascending.modify tid f⟩
    rw [htasks, Table.modify_row] at hr
    split_ifs at hr with hk
    · obtain ⟨r', hr', rfl⟩ := Option.map_eq_some_iff.1 hr
      rw [hf, hk]
      exact hs.keyed tid r' hr'
    · exact hs.keyed k r hr
  cases h with
  | still pick tasks cursor =>
    exact ⟨fun k r hr => hs.keyed k r (tasks ▸ hr), tasks ▸ hs.ascending⟩
  | taken w args clock window row call within takes pick tasks cursor =>
    exact hmodify row.taskId (takenTask args clock (s.stores w)) (fun _ => rfl) tasks
  | inserted args now call pick tasks cursor =>
    refine ⟨fun k r hr => ?_, tasks ▸ hs.ascending.insert _⟩
    rw [tasks, Table.insert_row s.db.tasks.row_nextKey] at hr
    split_ifs at hr with hk
    · rw [← Option.some.inj hr, hk]
      rfl
    · exact hs.keyed k r hr
  | touched tid priority src now call pick tasks cursor =>
    exact hmodify tid (reprioritizedTask priority src now) (fun _ => rfl) tasks

theorem ordered_of_reachable (h : (laneFarm key freshEvery).Reachable s) : s.db.Ordered :=
  h.invariant (P := fun s => s.db.Ordered) (fun _ h => h)
    fun _ _ _ hs ha => (laneStep hs ha).ordered hs

/-- The cursors of successive claims are successive. -/
theorem lanePicks_cursors (hrun : (laneFarm key freshEvery).Steps s as t) (hs : s.db.Ordered) :
    (lanePicks key s as).map LanePick.cursor =
        List.range' (s.db.claimFairness key) (lanePicks key s as).length ∧
      t.db.claimFairness key = s.db.claimFairness key + (lanePicks key s as).length := by
  induction hrun with
  | nil => exact ⟨rfl, rfl⟩
  | cons ha hrest ih =>
    have hstep := laneStep hs ha
    obtain ⟨hcursors, hcount⟩ := ih (hstep.ordered hs)
    simp only [laneFarm_step] at hcursors hcount
    rw [lanePicks]
    cases hstep with
    | taken w args clock window row call within takes pick tasks cursor =>
      rw [cursor] at hcursors hcount
      rw [pick]
      refine ⟨?_, ?_⟩
      · simp only [Option.toList_some, List.singleton_append, List.map_cons, List.length_cons,
          List.range'_succ]
        rw [hcursors]
      · rw [hcount]
        simp only [Option.toList_some, List.singleton_append, List.length_cons]
        omega
    | still pick tasks cursor =>
      rw [cursor] at hcursors hcount
      rw [pick]
      exact ⟨hcursors, hcount⟩
    | inserted args now call pick tasks cursor =>
      rw [cursor] at hcursors hcount
      rw [pick]
      exact ⟨hcursors, hcount⟩
    | touched tid priority src now call pick tasks cursor =>
      rw [cursor] at hcursors hcount
      rw [pick]
      exact ⟨hcursors, hcount⟩

/-- Of `m` successive numbers one is a multiple of `m`. -/
theorem countP_multiples {m : ℕ} (hm : 0 < m) (c : ℕ) :
    (List.range' c m).countP (fun i => decide (i % m = 0)) = 1 := by
  induction c with
  | zero =>
    obtain ⟨n, rfl⟩ : ∃ n, m = n + 1 := ⟨m - 1, by omega⟩
    rw [List.range'_succ, List.countP_cons_of_pos (by simp), List.countP_eq_zero.2]
    intro i hi
    rw [List.mem_range'_1] at hi
    rw [decide_eq_true_eq, Nat.mod_eq_of_lt (by omega)]
    omega
  | succ c ih =>
    have hshift : c :: List.range' (c + 1) m = List.range' c m ++ [c + m] := by
      rw [← List.range'_succ, List.range'_concat, Nat.one_mul]
    have hcount := congrArg (List.countP fun i => decide (i % m = 0)) hshift
    rw [List.countP_append, ih, List.countP_cons, List.countP_singleton, Nat.add_mod_right] at hcount
    omega

/-- Successive cursors of `q * m` claims hold `q` multiples of `m`. -/
theorem countP_multiples_mul {m : ℕ} (hm : 0 < m) (c q : ℕ) :
    (List.range' c (q * m)).countP (fun i => decide (i % m = 0)) = q := by
  induction q generalizing c with
  | zero => simp
  | succ q ih =>
    rw [Nat.succ_mul, Nat.add_comm, ← List.range'_append_1, List.countP_append, ih,
      countP_multiples hm, Nat.add_comm]

theorem countP_fresh {picks : List LanePick} {m c : ℕ}
    (h : picks.map LanePick.cursor = List.range' c picks.length) :
    picks.countP (LanePick.fresh m) =
      (List.range' c picks.length).countP fun i => decide (i % m = 0) := by
  rw [← h, List.countP_map]
  rfl

/-! ## The tasks ahead of a task -/

/-- The task can be claimed before the other one: it is more urgent, or older. -/
def Ahead (row r : TaskRow) : Prop :=
  (r.state = .queued ∨ r.state = .deferred) ∧
    (r.priority < row.priority ∨ ageKey r < ageKey row)

instance aheadDecidable (row r : TaskRow) : Decidable (Ahead row r) :=
  inferInstanceAs (Decidable (_ ∧ _))

/-- The ids of the tasks ahead of a task. -/
def tasksAhead (db : TaskDb) (row : TaskRow) : Finset ℕ :=
  db.tasks.keys.toFinset.filter fun k => ∃ r ∈ db.tasks.row k, Ahead row r

theorem mem_tasksAhead {db : TaskDb} {row : TaskRow} {k : ℕ} :
    k ∈ tasksAhead db row ↔ ∃ r, db.tasks.row k = some r ∧ Ahead row r := by
  simp only [tasksAhead, Finset.mem_filter, List.mem_toFinset, db.tasks.mem_keys, Option.mem_def]
  constructor
  · rintro ⟨-, h⟩
    exact h
  · rintro ⟨r, hr, h⟩
    exact ⟨by simp [hr], r, hr, h⟩

/-- Every call of the lane finds the task eligible and older than its window: its filters let the
task pass, and its clock is past the time until which the task was deferred. -/
def Admits (row : TaskRow) : Action → Prop
  | .claim _ args clock =>
      (args.taskTypes = [] ∨ row.spec.taskType ∈ args.taskTypes) ∧
      (∀ c ∈ args.minimumCreatedAt, c ≤ row.createdAt) ∧
      (row.state = .deferred → ∃ u ∈ row.deferredUntil, u ≤ clock.first) ∧
      ∀ window ∈ args.freshnessWindowSeconds, row.createdAt < clock.second - window
  | _ => True

/-- What is enqueued is no more urgent than the task, and newer. -/
def Behind (row : TaskRow) : Action → Prop
  | .enqueue args now | .insert args now => row.priority ≤ args.priority ∧ row.createdAt ≤ now
  | .reprioritize tid priority _ _ => tid ≠ row.taskId ∧ row.priority ≤ priority
  | _ => True

/-- The task waits for a claim: it is queued or deferred, and what it depends on is completed. -/
structure Waits (db : TaskDb) (row : TaskRow) : Prop where
  present : db.tasks.row row.taskId = some row
  claimable : row.state = .queued ∨ row.state = .deferred
  ready : ∀ d ∈ row.spec.dependsOn, completedTask db d = true

/-- The task has been claimed. -/
def Claimed (db : TaskDb) (tid : ℕ) : Prop := ∃ r, db.tasks.row tid = some r ∧ r.state = .running

variable {row : TaskRow}

theorem le_claimTimes (args : ClaimArgs) (clock : Readings) (store : Store) :
    clock.first ≤ (claimTimes args clock store).1 ∧
      clock.second ≤ (claimTimes args clock store).2 := by
  simp only [claimTimes, effectiveNow, flooredTime]
  exact ⟨le_max_of_le_left (le_max_left _ _), le_max_of_le_left (le_max_left _ _)⟩

theorem Waits.eligible (h : Waits s.db row) {w : ℕ} {args : ClaimArgs} {clock : Readings}
    (ha : Admits row (.claim w args clock)) (store : Store) :
    eligible args (claimTimes args clock store).1 s.db row = true := by
  obtain ⟨htype, hcreated, hdeferred, -⟩ := ha
  refine decide_eq_true ⟨?_, h.ready, htype, hcreated⟩
  rcases h.claimable with hqueued | hstate
  · exact .inl hqueued
  · obtain ⟨u, hu, hle⟩ := hdeferred hstate
    exact .inr ⟨hstate, u, hu, hle.trans (le_claimTimes args clock store).1⟩

/-- A claim that prefers debt takes the task or one ahead of it. -/
theorem Waits.ahead_of_debt (h : Waits s.db row) {w : ℕ} {args : ClaimArgs} {clock : Readings}
    {window : ℚ} {r : TaskRow} (ha : Admits row (.claim w args clock))
    (hwindow : args.freshnessWindowSeconds = some window)
    (hdebt : s.db.claimFairness key % args.freshEvery ≠ 0)
    (ht : Takes (some (key, window)) args (claimTimes args clock (s.stores w)) s.db r) :
    r.taskId = row.taskId ∨ Ahead row r := by
  have helig := h.eligible ha (s.stores w)
  have hmem : row ∈ s.db.tasks.toList := Table.mem_toList.2 ⟨_, h.present⟩
  have hle := ht.least row hmem helig
  obtain ⟨hready, -⟩ := of_decide_eq_true ht.ready
  have hclaimable : r.state = .queued ∨ r.state = .deferred := hready.imp id And.left
  have hold : row.createdAt < (claimTimes args clock (s.stores w)).2 - window :=
    (ha.2.2.2 window hwindow).trans_le
      (sub_le_sub_right (le_claimTimes args clock (s.stores w)).2 window)
  have hrank : laneRank (some (key, window)) args.freshEvery
      (claimTimes args clock (s.stores w)).2 s.db row = 0 := by
    simp only [laneRank, if_neg hdebt, if_pos hold]
  by_cases hid : r.taskId = row.taskId
  · exact .inl hid
  refine .inr ⟨hclaimable, ?_⟩
  simp only [claimKey, Prod.Lex.toLex_le_toLex, hrank] at hle
  rcases hle with hurgent | ⟨hsame, hrest⟩
  · exact .inl hurgent
  refine .inr ?_
  rcases hrest with hlt | ⟨hzero, hage⟩
  · exact absurd hlt (Nat.not_lt_zero _)
  rcases hage.lt_or_eq with hlt | heq
  · exact Prod.Lex.toLex_lt_toLex.2 (.inl hlt)
  · have hkey : claimKey (laneRank (some (key, window)) args.freshEvery
        (claimTimes args clock (s.stores w)).2 s.db) row =
          claimKey (laneRank (some (key, window)) args.freshEvery
            (claimTimes args clock (s.stores w)).2 s.db) r := by
      simp only [claimKey, hrank, hsame, hzero, heq]
    exact Prod.Lex.toLex_lt_toLex.2
      (.inr ⟨heq, lt_of_le_of_ne (ht.first row hmem helig hkey) hid⟩)

/-- No action of the lane touches the state of a task that cannot be claimed. -/
theorem LaneStep.keeps (h : LaneStep key s a) {tid : ℕ} {r : TaskRow}
    (hr : s.db.tasks.row tid = some r) (hstate : ¬ (r.state = .queued ∨ r.state = .deferred)) :
    ∃ r', (s.step a).db.tasks.row tid = some r' ∧ r'.state = r.state := by
  cases h with
  | still pick tasks cursor => exact ⟨r, tasks ▸ hr, rfl⟩
  | taken w args clock window e call within takes pick tasks cursor =>
    have hne : tid ≠ e.taskId := by
      rintro rfl
      rw [takes.present] at hr
      obtain rfl := Option.some.inj hr
      exact hstate ((of_decide_eq_true takes.ready).1.imp id And.left)
    exact ⟨r, by rw [tasks, Table.modify_row_of_ne _ hne, hr], rfl⟩
  | inserted args now call pick tasks cursor =>
    exact ⟨r, by rw [tasks]; exact Table.insert_row_some hr, rfl⟩
  | touched tid' priority src now call pick tasks cursor =>
    by_cases hk : tid = tid'
    · refine ⟨reprioritizedTask priority src now r, ?_, rfl⟩
      rw [tasks, hk, Table.modify_row_self, ← hk, hr]
      rfl
    · exact ⟨r, by rw [tasks, Table.modify_row_of_ne _ hk, hr], rfl⟩

theorem LaneStep.completed (h : LaneStep key s a) {tid : ℕ} (hd : completedTask s.db tid = true) :
    completedTask (s.step a).db tid = true := by
  rw [completedTask] at hd ⊢
  cases hr : s.db.tasks.row tid with
  | none => simp [hr] at hd
  | some r =>
    have hstate : r.state = .completed := by simpa [hr] using hd
    obtain ⟨r', hr', hsame⟩ := h.keeps hr (by simp [hstate])
    simp [hr', hsame, hstate]

/-- The step lemma: an action of the lane claims a waiting task, or leaves it waiting, and a claim
that prefers debt takes a task ahead of it away. -/
theorem LaneStep.waits (h : LaneStep key s a) (hw : Waits s.db row)
    (ha : LaneAction key freshEvery a) (hadmits : Admits row a) (hbehind : Behind row a) :
    Claimed (s.step a).db row.taskId ∨ Waits (s.step a).db row ∧
      (lanePick key s a).toList.countP (fun p => !p.fresh freshEvery) +
        (tasksAhead (s.step a).db row).card ≤ (tasksAhead s.db row).card := by
  have hready : ∀ d ∈ row.spec.dependsOn, completedTask (s.step a).db d = true :=
    fun d hd => h.completed (hw.ready d hd)
  cases h with
  | still pick tasks cursor =>
    refine .inr ⟨⟨tasks ▸ hw.present, hw.claimable, hready⟩, ?_⟩
    rw [pick, tasksAhead, tasks]
    simp [tasksAhead]
  | taken w args clock window r call within takes pick tasks cursor =>
    subst call
    by_cases hid : row.taskId = r.taskId
    · refine .inl ⟨takenTask args clock (s.stores w) r, ?_, rfl⟩
      rw [tasks, hid, Table.modify_row_self, takes.present]
      rfl
    refine .inr ⟨⟨?_, hw.claimable, hready⟩, ?_⟩
    · rw [tasks, Table.modify_row_of_ne _ hid, hw.present]
    have hsub : tasksAhead (s.step (.claim w args clock)).db row ⊆
        (tasksAhead s.db row).erase r.taskId := by
      intro k hk
      obtain ⟨r', hr', hahead⟩ := mem_tasksAhead.1 hk
      rw [tasks, Table.modify_row] at hr'
      split_ifs at hr' with hkr
      · rw [takes.present] at hr'
        obtain rfl := Option.some.inj hr'
        rcases hahead.1 with hstate | hstate <;> cases hstate
      · exact Finset.mem_erase.2 ⟨hkr, mem_tasksAhead.2 ⟨r', hr', hahead⟩⟩
    rw [pick, Option.toList_some, List.countP_singleton]
    by_cases hfresh : s.db.claimFairness key % freshEvery = 0
    · have hcard := Finset.card_le_card (hsub.trans (Finset.erase_subset _ _))
      simpa [LanePick.fresh, hfresh] using hcard
    · have hahead : Ahead row r :=
        (hw.ahead_of_debt hadmits within (ha.2.symm ▸ hfresh) takes).resolve_left (Ne.symm hid)
      have hmem : r.taskId ∈ tasksAhead s.db row := mem_tasksAhead.2 ⟨r, takes.present, hahead⟩
      have hcard := Finset.card_le_card hsub
      have hpos := Finset.card_pos.2 ⟨_, hmem⟩
      rw [Finset.card_erase_of_mem hmem] at hcard
      simp only [LanePick.fresh, decide_eq_false hfresh, Bool.not_false, if_true]
      omega
  | inserted args now call pick tasks cursor =>
    have hnew : row.priority ≤ args.priority ∧ row.createdAt ≤ now := by
      rcases call with rfl | rfl
      · exact hbehind
      · exact hbehind
    refine .inr ⟨⟨by rw [tasks]; exact Table.insert_row_some hw.present, hw.claimable, hready⟩, ?_⟩
    rw [pick, Option.toList_none, List.countP_nil, Nat.zero_add]
    refine Finset.card_le_card fun k hk => ?_
    obtain ⟨r, hr, hahead⟩ := mem_tasksAhead.1 hk
    rw [tasks, Table.insert_row s.db.tasks.row_nextKey] at hr
    split_ifs at hr with hkey
    · obtain rfl := Option.some.inj hr
      have hid := Table.lt_nextKey hw.present
      rcases hahead.2 with hurgent | hage
      · exact absurd hurgent (not_lt.2 hnew.1)
      · rcases Prod.Lex.toLex_lt_toLex.1 hage with hlt | ⟨-, hlt⟩
        · exact absurd hlt (not_lt.2 hnew.2)
        · exact absurd hlt (not_lt.2 hid.le)
    · exact mem_tasksAhead.2 ⟨r, hr, hahead⟩
  | touched tid priority src now call pick tasks cursor =>
    have hother : row.taskId ≠ tid ∧ row.priority ≤ priority := by
      rcases call with rfl | ⟨args, r, rfl, rfl, hr, hless⟩
      · exact ⟨Ne.symm hbehind.1, hbehind.2⟩
      · refine ⟨?_, hbehind.1⟩
        rintro rfl
        rw [hw.present] at hr
        obtain rfl := Option.some.inj hr
        exact absurd hless (not_lt.2 hbehind.1)
    refine .inr ⟨⟨?_, hw.claimable, hready⟩, ?_⟩
    · rw [tasks, Table.modify_row_of_ne _ hother.1, hw.present]
    rw [pick, Option.toList_none, List.countP_nil, Nat.zero_add]
    refine Finset.card_le_card fun k hk => ?_
    obtain ⟨r, hr, hahead⟩ := mem_tasksAhead.1 hk
    rw [tasks, Table.modify_row] at hr
    split_ifs at hr with hkey
    · obtain ⟨r', hr', rfl⟩ := Option.map_eq_some_iff.1 hr
      have hage := hahead.2.resolve_left (not_lt.2 hother.2)
      exact mem_tasksAhead.2 ⟨r', hkey ▸ hr', hahead.1, .inr hage⟩
    · exact mem_tasksAhead.2 ⟨r, hr, hahead⟩

theorem claimed_of_steps (hrun : (laneFarm key freshEvery).Steps s as t) (hs : s.db.Ordered)
    {tid : ℕ} (h : Claimed s.db tid) : Claimed t.db tid := by
  induction hrun with
  | nil => exact h
  | cons ha hrest ih =>
    have hstep := laneStep hs ha
    obtain ⟨r, hr, hrunning⟩ := h
    obtain ⟨r', hr', hstate⟩ := hstep.keeps hr (by simp [hrunning])
    exact ih (hstep.ordered hs) ⟨r', hr', hstate.trans hrunning⟩

/-- The run lemma: while the task waits, no more claims prefer debt than tasks are ahead of it. -/
theorem debt_le_ahead (hrun : (laneFarm key freshEvery).Steps s as t) (hs : s.db.Ordered)
    (hw : Waits s.db row) (has : ∀ a ∈ as, Admits row a ∧ Behind row a) :
    Claimed t.db row.taskId ∨
      (lanePicks key s as).countP (fun p => !p.fresh freshEvery) ≤ (tasksAhead s.db row).card := by
  induction hrun with
  | nil => exact .inr (Nat.zero_le _)
  | cons ha hrest ih =>
    have hstep := laneStep hs ha
    obtain ⟨hadmits, hbehind⟩ := has _ List.mem_cons_self
    rcases hstep.waits hw ha hadmits hbehind with hclaimed | ⟨hwaits, hcount⟩
    · exact .inl (claimed_of_steps hrest (hstep.ordered hs) hclaimed)
    · refine (ih (hstep.ordered hs) hwaits fun a ha => has a (List.mem_cons_of_mem _ ha)).imp id
        fun hle => ?_
      rw [laneFarm_step] at hle
      rw [lanePicks, List.countP_append]
      omega

/-! ## Fairness -/

/-- The task that a claim takes when it prefers debt: of the most urgent eligible tasks the oldest,
if any of them is older than the window. -/
structure TakesDebt (args : ClaimArgs) (times : ℚ × ℚ) (db : TaskDb) (tid : ℕ) (row : TaskRow) :
    Prop where
  present : db.tasks.row tid = some row
  ready : eligible args times.1 db row = true
  urgent : ∀ r ∈ db.tasks.toList, eligible args times.1 db r = true → row.priority ≤ r.priority
  oldest : ∀ window ∈ args.freshnessWindowSeconds, ∀ r ∈ db.tasks.toList,
    eligible args times.1 db r = true → r.priority = row.priority →
    r.createdAt < times.2 - window →
    row.createdAt < times.2 - window ∧ ageKey row ≤ ageKey r

theorem Takes.debt {window : ℚ} {args : ClaimArgs} {times : ℚ × ℚ} {db : TaskDb} {r : TaskRow}
    (h : Takes (some (key, window)) args times db r)
    (hwindow : args.freshnessWindowSeconds = some window)
    (hdebt : db.claimFairness key % args.freshEvery ≠ 0) : TakesDebt args times db r.taskId r where
  present := h.present
  ready := h.ready
  urgent := by
    intro x hx hxe
    have hle := h.least x hx hxe
    simp only [claimKey, Prod.Lex.toLex_le_toLex] at hle
    rcases hle with hlt | ⟨heq, -⟩
    · exact hlt.le
    · exact heq.le
  oldest := by
    intro window' hwindow' x hx hxe hsame hold
    obtain rfl : window = window' := Option.some.inj (hwindow.symm.trans hwindow')
    have hrank : laneRank (some (key, window)) args.freshEvery times.2 db x = 0 := by
      simp only [laneRank, if_neg hdebt, if_pos hold]
    have hle := h.least x hx hxe
    simp only [claimKey, Prod.Lex.toLex_le_toLex, hrank, hsame, lt_irrefl, true_and,
      false_or, Nat.not_lt_zero] at hle
    obtain ⟨hzero, hage⟩ := hle
    have hrold : r.createdAt < times.2 - window := by
      by_contra hyoung
      simp [laneRank, hdebt, hyoung] at hzero
    refine ⟨hrold, Prod.Lex.toLex_le_toLex.2 ?_⟩
    rcases hage.lt_or_eq with hlt | heq
    · exact .inl hlt
    · refine .inr ⟨heq, h.first x hx hxe ?_⟩
      simp only [claimKey, hrank, hsame, hzero, heq]

/-- What holds of a run of a lane from one state to another. -/
structure FairLane (key : String) (freshEvery : ℕ) (s : TaskFarm) (as : List Action)
    (t : TaskFarm) : Prop where
  cursor : t.db.claimFairness key = s.db.claimFairness key + (lanePicks key s as).length
  fresh : ∀ picks, picks <:+: lanePicks key s as → picks.length = freshEvery →
    picks.countP (LanePick.fresh freshEvery) = 1
  debt : ∀ w args clock pick, LaneAction key freshEvery (.claim w args clock) →
    lanePick key t (.claim w args clock) = some pick → pick.fresh freshEvery = false →
    ∃ row, TakesDebt args (claimTimes args clock (t.stores w)) t.db pick.taskId row
  claimed : ∀ row, Waits s.db row → (∀ a ∈ as, Admits row a ∧ Behind row a) →
    ((tasksAhead s.db row).card + 2) * freshEvery ≤ (lanePicks key s as).length →
    Claimed t.db row.taskId

/-- Fair lanes do not starve old tasks. -/
theorem lanes_do_not_starve (hfresh : 2 ≤ freshEvery)
    (hs : (laneFarm key freshEvery).Reachable s) (hrun : (laneFarm key freshEvery).Steps s as t) :
    FairLane key freshEvery s as t := by
  have hordered := ordered_of_reachable hs
  obtain ⟨hcursors, hcount⟩ := lanePicks_cursors hrun hordered
  refine ⟨hcount, fun picks hinfix hlength => ?_, fun w args clock pick ha hpick hdebt => ?_,
    fun row hw has hlong => ?_⟩
  · obtain ⟨pre, post, hsplit⟩ := hinfix
    have hmap : picks.map LanePick.cursor =
        List.range' (s.db.claimFairness key + pre.length) picks.length := by
      rw [← hsplit] at hcursors
      simp only [List.map_append, List.length_append, List.append_assoc] at hcursors
      rw [← List.range'_append_1, ← List.range'_append_1] at hcursors
      have hrest := (List.append_inj hcursors (by simp)).2
      exact (List.append_inj hrest (by simp)).1
    rw [countP_fresh hmap, hlength, countP_multiples (by omega)]
  · cases laneStep (ordered_of_reachable (hrun.reachable hs)) ha with
    | taken w' args' clock' window row call within takes pick' tasks cursor =>
      cases call
      obtain rfl := Option.some.inj (hpick.symm.trans pick')
      refine ⟨row, takes.debt within ?_⟩
      rw [ha.2]
      exact of_decide_eq_false hdebt
    | still pick' tasks cursor => rw [hpick] at pick'; cases pick'
    | inserted args' now call pick' tasks cursor => rw [hpick] at pick'; cases pick'
    | touched tid priority src now call pick' tasks cursor => rw [hpick] at pick'; cases pick'
  · refine (debt_le_ahead hrun hordered hw has).resolve_right fun hle => ?_
    set k := (tasksAhead s.db row).card
    have hinit : (lanePicks key s as).take ((k + 2) * freshEvery) <+: lanePicks key s as :=
      List.take_prefix _ _
    have hfirst : ((lanePicks key s as).take ((k + 2) * freshEvery)).countP
        (fun p => !p.fresh freshEvery) ≤ k := (hinit.sublist.countP_le).trans hle
    have hlen : ((lanePicks key s as).take ((k + 2) * freshEvery)).length = (k + 2) * freshEvery := by
      rw [List.length_take, Nat.min_eq_left hlong]
    have hmap : ((lanePicks key s as).take ((k + 2) * freshEvery)).map LanePick.cursor =
        List.range' (s.db.claimFairness key)
          ((lanePicks key s as).take ((k + 2) * freshEvery)).length := by
      rw [List.map_take, hcursors, List.take_range'_of_length_ge hlong, hlen]
    have hmultiples := countP_fresh (m := freshEvery) hmap
    rw [hlen, countP_multiples_mul (by omega)] at hmultiples
    have hsum := List.length_eq_countP_add_countP (LanePick.fresh freshEvery)
      (l := (lanePicks key s as).take ((k + 2) * freshEvery))
    rw [hlen, hmultiples] at hsum
    have hdouble : (k + 2) * 2 ≤ (k + 2) * freshEvery := Nat.mul_le_mul_left _ hfresh
    have hrest : (fun p : LanePick => decide ¬ p.fresh freshEvery = true) =
        fun p => !p.fresh freshEvery := funext fun p => by cases p.fresh freshEvery <;> rfl
    rw [hrest] at hsum
    omega

/-! ## A lane of one worker -/

instance laneActionDecidable (key : String) (freshEvery : ℕ) (a : Action) :
    Decidable (LaneAction key freshEvery a) := by
  cases a <;> unfold LaneAction <;> infer_instance

instance laneEnabledDecidable (key : String) (freshEvery : ℕ) (s : TaskFarm) (a : Action) :
    Decidable ((laneFarm key freshEvery).enabled s a) := laneActionDecidable key freshEvery a

instance admitsDecidable (row : TaskRow) (a : Action) : Decidable (Admits row a) := by
  cases a <;> unfold Admits <;> infer_instance

instance behindDecidable (row : TaskRow) (a : Action) : Decidable (Behind row a) := by
  cases a <;> unfold Behind <;> infer_instance

def idleFarm : TaskFarm where
  db := TaskDb.empty
  stores _ := Store.open "worker-0" 900 0
  pending _ := none

theorem idleFarm_ordered : idleFarm.db.Ordered where
  keyed _ _ h := by cases h
  ascending := List.Pairwise.nil

def backtestTask (taskKey : String) (state : TaskState) (deferredUntil : Option ℚ) :
    EnqueueArgs where
  spec := { taskKey, taskType := "backtest" }
  priority := 100
  sourceEventId := none
  state
  machineReason := ""
  deferredUntil
  ttlSeconds := 0

def laneClaim (now : ℚ) : Action :=
  .claim 0 { fairnessKey := some "backtest", freshnessWindowSeconds := some 100 } ⟨now, now⟩

/-- Two tasks are deferred for 200 seconds; the third one is queued. -/
def deferringInputs : List Action :=
  [.enqueue (backtestTask "a" .deferred (some 200)) 1,
    .enqueue (backtestTask "b" .deferred (some 200)) 2, .enqueue (backtestTask "c" .queued none) 10]

/-- Newer tasks arrive, and the deferred ones become eligible. -/
def arrivingInputs : List Action :=
  [.enqueue (backtestTask "d" .queued none) 195, .enqueue (backtestTask "e" .queued none) 196,
    laneClaim 200, laneClaim 200, laneClaim 200, laneClaim 200]

def deferringFarm : TaskFarm := (laneFarm "backtest" 2).run idleFarm deferringInputs

theorem deferringFarm_reachable : (laneFarm "backtest" 2).Reachable deferringFarm :=
  Machine.reachable_run deferringInputs idleFarm_ordered (by decide +kernel)

def waitingTask : TaskRow := newTask (backtestTask "c" .queued none) 3 10

theorem waitingTask_waits : Waits deferringFarm.db waitingTask where
  present := rfl
  claimable := .inl rfl
  ready := by simp [waitingTask, newTask, backtestTask]

/-- The eligible tasks ahead of a task. -/
def eligibleAhead (args : ClaimArgs) (now : ℚ) (db : TaskDb) (row : TaskRow) : List TaskRow :=
  db.tasks.toList.filter fun r => eligible args now db r && decide (Ahead row r)

/-- Tasks that are deferred while a task becomes eligible are claimed before it. -/
theorem deferred_tasks_overtake :
    ¬ ∀ (s t : TaskFarm) (as : List Action) (row : TaskRow) (args : ClaimArgs) (now window : ℚ),
      (laneFarm "backtest" 2).Reachable s → (laneFarm "backtest" 2).Steps s as t →
      Waits s.db row → eligible args now s.db row = true → row.createdAt < now - window →
      (∀ a ∈ as, Admits row a ∧ Behind row a) →
      ((eligibleAhead args now s.db row).length + 2) * 2 ≤ (lanePicks "backtest" s as).length →
      Claimed t.db row.taskId := by
  intro h
  obtain ⟨r, hr, hstate⟩ := h deferringFarm _ arrivingInputs waitingTask {} 150 100
    deferringFarm_reachable (Machine.Runs.steps (by decide +kernel)) waitingTask_waits
    (by decide +kernel) (by decide +kernel) (by decide +kernel) (by decide +kernel)
  have hqueued : (((laneFarm "backtest" 2).run deferringFarm arrivingInputs).db.tasks.row 3).map
      TaskRow.state = some .queued := by decide +kernel
  rw [show waitingTask.taskId = 3 from rfl] at hr
  rw [hr, Option.map_some, hstate] at hqueued
  cases hqueued

/-- With two older tasks that are still deferred it takes eight claims at most. -/
theorem lanes_do_not_starve_waitingTask :
    FairLane "backtest" 2 deferringFarm (arrivingInputs ++ arrivingInputs)
      ((laneFarm "backtest" 2).run deferringFarm (arrivingInputs ++ arrivingInputs)) :=
  lanes_do_not_starve le_rfl deferringFarm_reachable (Machine.Runs.steps (by decide +kernel))

end ResearchLab.FarmTasks
