import Mathlib
import ResearchLab.Validation.DueTasks

/-!
# Backing off

A task that a call defers may come back in the same call, when the time until which it is deferred
does not lie behind every reading of the clock that the call may still make.
-/
namespace ResearchLab.Validation.DueTasks
open Foundation FarmTasks

/-- The call claims a task once at most, raises its attempts by one at most, and nobody claims what
it deferred within 300 seconds. -/
structure BacksOff (since : ℚ) (start : TaskDb) (c : Call) : Prop where
  once : c.claims.Nodup
  attempts : ∀ tid row row', start.tasks.row tid = some row → c.db.tasks.row tid = some row' →
    row'.attempts ≤ row.attempts + 1
  waits : ∀ tid ∈ c.deferrals, ∀ (args : ClaimArgs) (clock : Readings) (store : FarmTasks.Store)
    (row : TaskRow), (claimTimes args clock store).1 < since + 300 →
    (claimNextTask args clock store c.db).1 = .ok (some row) → row.taskId ≠ tid

/-- The time of the call. -/
def callTime (req : Request) (clock : ℕ → ℚ) : ℚ := req.now.getD (clock 0)

/-- The call claims nothing; or it is given its time, and neither the floor of the store nor the
clock at the last claim that the scan limit allows has reached the time until which it defers. -/
def Timely (req : Request) (clock : ℕ → ℚ) (floor : ℚ) : Prop :=
  req.room = 0 ∨ (callTime req clock ≤ req.now.getD 0 ∧ floor < req.due ∧
    clock (5 * (req.scanLimit - 1)) < req.due)

/-! ## What the store answers -/

section
variable {db : TaskDb} {args : ClaimArgs} {times : Readings} {store : FarmTasks.Store}

/-- What a claim does when it takes a task. -/
structure TakesTask (args : ClaimArgs) (times : Readings) (store : FarmTasks.Store) (db : TaskDb)
    (row : TaskRow) : Prop where
  present : db.tasks.row row.taskId = some row
  ready : eligible args (claimTimes args times store).1 db row = true
  answer : (claimNextTask args times store db).1 = .ok (some (takenTask args times store row))
  holder : (claimNextTask args times store db).2.1 =
    (store.advance (claimTimes args times store).2).setClaim row.taskId
      (some (row.fencingToken + 1))
  tasks : (claimNextTask args times store db).2.2.tasks =
    db.tasks.modify row.taskId (takenTask args times store)

variable (args times store) in
theorem claimNextTask_cases (hkey : Keyed db) :
    ((∀ row, (claimNextTask args times store db).1 ≠ .ok (some row)) ∧
      (claimNextTask args times store db).2.2 = db ∧
      (claimNextTask args times store db).2.1.authorityTimeFloor ≤
        (claimTimes args times store).2) ∨
    ∃ row, TakesTask args times store db row := by
  have hmono : (claimTimes args times store).1 ≤ (claimTimes args times store).2 :=
    floor_le_flooredTime _ _ _
  cases hresult : claimNextTask args times store db with
  | mk answer after =>
    obtain ⟨after, db'⟩ := after
    have hcopy := hresult
    simp only [claimNextTask] at hcopy
    split at hcopy
    · cases hcopy
      exact .inl ⟨by simp, rfl, hmono⟩
    split at hcopy
    · cases hcopy
      exact .inl ⟨by simp, rfl, le_rfl⟩
    split at hcopy
    · cases hcopy
      exact .inl ⟨by simp, rfl, le_rfl⟩
    next row hmin =>
    split at hcopy
    · cases hcopy
      exact .inl ⟨by simp, rfl, le_rfl⟩
    next tasks hcas =>
    obtain ⟨r, hr, -, rfl⟩ := Table.compareAndSet_eq_some.1 hcas
    obtain ⟨hmem, hready⟩ := List.mem_filter.1 (firstMin_mem hmin)
    obtain ⟨k, hk⟩ := Table.mem_toList.1 hmem
    obtain rfl := hkey k row hk
    cases hcopy
    have htaken : (db.tasks.modify row.taskId (takenTask args times store)).row row.taskId =
        some (takenTask args times store row) := by
      rw [Table.modify_row_self, hk]
      rfl
    exact .inr ⟨row, hk, hready, by rw [hresult]; exact congrArg Except.ok htaken,
      by rw [hresult]; rfl, by rw [hresult]; rfl⟩

/-- A claim takes a task that is eligible before the lock. -/
theorem eligible_of_claim (hkey : Keyed db) {row : TaskRow}
    (h : (claimNextTask args times store db).1 = .ok (some row)) :
    ∃ r, db.tasks.row row.taskId = some r ∧
      eligible args (claimTimes args times store).1 db r = true := by
  rcases claimNextTask_cases args times store hkey with ⟨hnone, -⟩ | ⟨r, htakes⟩
  · exact absurd h (hnone row)
  · obtain rfl := Option.some.inj (Except.ok.inj (htakes.answer.symm.trans h))
    exact ⟨r, htakes.present, htakes.ready⟩

end

/-- The changes that a call makes to a task that it claimed. -/
def Settles (due : ℚ) (change : StateRequest) : Prop :=
  change.target = .completed ∨ change.target = .skipped ∨ ∃ reason, change = .defer due reason

section
variable {now : Option ℚ} {clock : ℕ → ℚ} {tid : ℕ} {change : StateRequest} {c : Call}

variable (tid change) in
theorem setStateWrite_cases (row : TaskRow) (observed : ℚ) (store : FarmTasks.Store)
    (db : TaskDb) :
    (setStateWrite change tid row observed store db).2.1.authorityTimeFloor =
        effectiveNow store (some store.authorityTimeFloor) observed ∧
      (((∃ e, (setStateWrite change tid row observed store db).1 = .error e) ∧
          (setStateWrite change tid row observed store db).2.2 = db) ∨
        (∃ r, db.tasks.row tid = some r) ∧
          (setStateWrite change tid row observed store db).1 = .ok () ∧
          (setStateWrite change tid row observed store db).2.2.tasks = db.tasks.modify tid
            (changedTask change (effectiveNow store (some store.authorityTimeFloor) observed))) := by
  simp only [setStateWrite]
  split
  · exact ⟨rfl, .inl ⟨⟨_, rfl⟩, rfl⟩⟩
  next tasks hcas =>
  obtain ⟨r, hr, -, rfl⟩ := Table.compareAndSet_eq_some.1 hcas
  split
  · exact ⟨rfl, .inl ⟨⟨_, rfl⟩, rfl⟩⟩
  · exact ⟨rfl, .inr ⟨⟨r, hr⟩, rfl, rfl⟩⟩

variable (now tid) in
theorem setStateCheck_floor (target : TaskState) (observed : ℚ) (store : FarmTasks.Store)
    (db : TaskDb) : (setStateCheck tid target now observed store db).2 =
      store.advance (effectiveNow store now observed) := by
  simp only [setStateCheck]
  split
  · rfl
  split
  · split_ifs <;> rfl
  · split_ifs <;> rfl

variable (now clock tid change c) in
/-- A settlement fails, or changes the row of the task. -/
theorem settle_cases :
    (c.settle now clock tid change).2.claims = c.claims ∧
    (((∃ e, (c.settle now clock tid change).1 = .error e) ∧
        (c.settle now clock tid change).2.db = c.db ∧
        (c.settle now clock tid change).2.deferrals = c.deferrals) ∨
      (∃ r, c.db.tasks.row tid = some r) ∧
        (∃ current, (c.settle now clock tid change).2.db.tasks =
          c.db.tasks.modify tid (changedTask change current)) ∧
        (c.settle now clock tid change).2.deferrals = match change with
          | .defer _ _ => c.deferrals ++ [tid]
          | _ => c.deferrals) := by
  simp only [Call.settle]
  split
  · exact ⟨rfl, .inl ⟨⟨_, rfl⟩, rfl, rfl⟩⟩
  next row store hcheck =>
  obtain ⟨-, ⟨⟨e, he⟩, hdb⟩ | ⟨hr, hok, htasks⟩⟩ :=
    setStateWrite_cases tid change row (clock (c.readings + 1)) store c.db
  · exact ⟨rfl, .inl ⟨⟨e, he⟩, hdb, by simp only [he]⟩⟩
  · exact ⟨rfl, .inr ⟨hr, ⟨_, htasks⟩, by simp only [hok]; cases change <;> rfl⟩⟩

end

/-! ## Calls in time -/

theorem effectiveNow_le {store : FarmTasks.Store} {supplied : Option ℚ} {observed b : ℚ}
    (hfloor : store.authorityTimeFloor ≤ b) (hsupplied : ∀ t ∈ supplied, t ≤ b)
    (hobserved : observed ≤ b) : effectiveNow store supplied observed ≤ b := by
  refine max_le (max_le hobserved ?_) hfloor
  cases supplied with
  | none => exact hobserved
  | some t => exact hsupplied t rfl

/-- No effective time of the store is later, as long as the clock was read `k` times. -/
def horizon (req : Request) (clock : ℕ → ℚ) (floor : ℚ) (k : ℕ) : ℚ :=
  max (max floor (req.now.getD 0)) (clock k)

/-- Nobody can claim the task before the time until which the call defers. -/
def Resting (due : ℚ) (row : TaskRow) : Prop :=
  row.state = .running ∨ row.state = .completed ∨ row.state = .skipped ∨
    (row.state = .deferred ∧ row.deferredUntil = some due)

theorem Resting.not_eligible {due t : ℚ} {row : TaskRow} {args : ClaimArgs} {db : TaskDb}
    (h : Resting due row) (ht : t < due) : eligible args t db row = false := by
  refine decide_eq_false fun heligible => ?_
  rcases heligible.1 with hqueued | ⟨hdeferred, u, hu, hle⟩
  · rcases h with h | h | h | ⟨h, -⟩ <;> rw [hqueued] at h <;> cases h
  · rcases h with h | h | h | ⟨-, huntil⟩
    · rw [hdeferred] at h
      cases h
    · rw [hdeferred] at h
      cases h
    · rw [hdeferred] at h
      cases h
    · obtain rfl := Option.some.inj (huntil.symm.trans hu)
      exact absurd ht (not_lt.2 hle)

theorem Settles.resting {due current : ℚ} {change : StateRequest} (h : Settles due change)
    (row : TaskRow) : Resting due (changedTask change current row) := by
  rcases h with h | h | ⟨reason, rfl⟩
  · exact .inr (.inl h)
  · exact .inr (.inr (.inl h))
  · exact .inr (.inr (.inr ⟨rfl, rfl⟩))

/-- What a call keeps while it is in time. -/
structure Calm (req : Request) (clock : ℕ → ℚ) (floor : ℚ) (start : TaskDb) (c : Call) : Prop where
  keyed : Keyed c.db
  once : c.claims.Nodup
  resting : ∀ tid ∈ c.claims, ∃ row, c.db.tasks.row tid = some row ∧ Resting req.due row
  attempts : ∀ tid row, c.db.tasks.row tid = some row →
    ∃ r, start.tasks.row tid = some r ∧ row.attempts = r.attempts + c.claims.count tid
  deferred : ∀ tid ∈ c.deferrals, tid ∈ c.claims
  floored : c.store.authorityTimeFloor ≤ horizon req clock floor c.readings

section
variable {req : Request} {clock : ℕ → ℚ} {floor : ℚ} {start : TaskDb} {c : Call}

variable (req floor) in
theorem horizon_mono (hclock : Monotone clock) : Monotone (horizon req clock floor) :=
  fun _ _ hle => max_le_max le_rfl (hclock hle)

theorem supplied_le_horizon (k : ℕ) : ∀ t ∈ req.now, t ≤ horizon req clock floor k := by
  intro t ht
  rw [Option.mem_def] at ht
  simp only [horizon, ht, Option.getD_some]
  exact le_max_of_le_left (le_max_right _ _)

variable (req floor) in
theorem clock_le_horizon (k : ℕ) : clock k ≤ horizon req clock floor k := le_max_right _ _

/-- The times of a claim lie within the horizon of its readings. -/
theorem claimTimes_le (hclock : Monotone clock)
    (hfloor : c.store.authorityTimeFloor ≤ horizon req clock floor c.readings) :
    (claimTimes (claimArgs req.now) ⟨clock c.readings, clock (c.readings + 1)⟩ c.store).1 ≤
        horizon req clock floor c.readings ∧
      (claimTimes (claimArgs req.now) ⟨clock c.readings, clock (c.readings + 1)⟩ c.store).2 ≤
        horizon req clock floor (c.readings + 2) := by
  have hfirst := effectiveNow_le hfloor (supplied_le_horizon c.readings)
    (clock_le_horizon req floor c.readings)
  have hlater := horizon_mono req floor hclock
    (show c.readings ≤ c.readings + 2 by omega)
  refine ⟨hfirst, effectiveNow_le (hfirst.trans hlater) ?_
    ((hclock (by omega)).trans (clock_le_horizon req floor (c.readings + 2)))⟩
  intro t ht
  obtain rfl := Option.some.inj ht
  exact hfirst.trans hlater

theorem Calm.backsOff (h : Calm req clock floor start c)
    (htime : callTime req clock ≤ req.now.getD 0) :
    BacksOff (callTime req clock) start c where
  once := h.once
  attempts tid row row' hrow hrow' := by
    obtain ⟨r, hr, hattempts⟩ := h.attempts tid row' hrow'
    obtain rfl := Option.some.inj (hrow.symm.trans hr)
    have hcount := List.nodup_iff_count_le_one.1 h.once tid
    omega
  waits tid htid args times store row hlt hclaim hsame := by
    obtain ⟨r, hr, heligible⟩ := eligible_of_claim h.keyed hclaim
    obtain ⟨r', hr', hresting⟩ := h.resting tid (h.deferred tid htid)
    rw [hsame, hr'] at hr
    obtain rfl := Option.some.inj hr
    have hdue : (claimTimes args times store).1 < req.due :=
      hlt.trans_le (by unfold Request.due; linarith)
    rw [hresting.not_eligible hdue] at heligible
    cases heligible

theorem keyed_modify {db db' : TaskDb} (hkey : Keyed db) {tid : ℕ} {f : TaskRow → TaskRow}
    (hdb : db'.tasks = db.tasks.modify tid f) (hf : ∀ r, (f r).taskId = r.taskId) : Keyed db' := by
  intro k r hr
  rw [hdb, Table.modify_row] at hr
  split_ifs at hr with hk
  · obtain ⟨r', hr', rfl⟩ := Option.map_eq_some_iff.1 hr
    rw [hf, hk]
    exact hkey tid r' hr'
  · exact hkey k r hr

variable (req clock) in
/-- The claim of a call takes no task, or takes one and notes it. -/
theorem claim_cases (hkey : Keyed c.db) :
    ((∀ task, (c.claim req.now clock).1 ≠ .ok (some task)) ∧
      (c.claim req.now clock).2.db = c.db ∧ (c.claim req.now clock).2.claims = c.claims ∧
      (c.claim req.now clock).2.store.authorityTimeFloor ≤ (claimTimes (claimArgs req.now)
        ⟨clock c.readings, clock (c.readings + 1)⟩ c.store).2) ∨
    ∃ row, TakesTask (claimArgs req.now) ⟨clock c.readings, clock (c.readings + 1)⟩ c.store c.db
        row ∧
      (c.claim req.now clock).2.claims = c.claims ++ [row.taskId] := by
  rcases claimNextTask_cases (claimArgs req.now) ⟨clock c.readings, clock (c.readings + 1)⟩ c.store
    hkey with
    ⟨hnone, hdb, hfloor⟩ | ⟨row, htakes⟩
  · refine .inl ⟨hnone, hdb, ?_, hfloor⟩
    simp only [Call.claim]
  · refine .inr ⟨row, htakes, ?_⟩
    simp only [Call.claim, htakes.answer]
    rfl

/-- A claim in time takes a task that the call has not claimed yet. -/
theorem Calm.claim (h : Calm req clock floor start c) (hclock : Monotone clock)
    (htime : horizon req clock floor c.readings < req.due) :
    Calm req clock floor start (c.claim req.now clock).2 ∧
      (c.claim req.now clock).2.readings = c.readings + 2 ∧
      c.claims ⊆ (c.claim req.now clock).2.claims ∧
      ∀ task, (c.claim req.now clock).1 = .ok (some task) →
        task.taskId ∈ (c.claim req.now clock).2.claims := by
  obtain ⟨hbefore, hunder⟩ := claimTimes_le hclock h.floored
  rcases claim_cases req clock h.keyed with
    ⟨hnone, hdb, hclaims, hfloor⟩ | ⟨row, htakes, hclaims⟩
  · refine ⟨⟨?_, ?_, ?_, ?_, ?_, hfloor.trans hunder⟩, rfl, ?_, fun task hok =>
      absurd hok (hnone task)⟩
    · rw [hdb]
      exact h.keyed
    · rw [hclaims]
      exact h.once
    · rw [hclaims, hdb]
      exact h.resting
    · rw [hclaims, hdb]
      exact h.attempts
    · rw [hclaims]
      exact h.deferred
    · rw [hclaims]
      exact List.Subset.refl _
  · have htasks : (c.claim req.now clock).2.db.tasks = c.db.tasks.modify row.taskId
        (takenTask (claimArgs req.now) ⟨clock c.readings, clock (c.readings + 1)⟩ c.store) :=
      htakes.tasks
    have hnew : row.taskId ∉ c.claims := by
      intro hmem
      obtain ⟨r, hr, hresting⟩ := h.resting _ hmem
      obtain rfl := Option.some.inj (hr.symm.trans htakes.present)
      have heligible := htakes.ready
      rw [hresting.not_eligible (hbefore.trans_lt htime)] at heligible
      cases heligible
    have hrow : ∀ k, (c.claim req.now clock).2.db.tasks.row k =
        if k = row.taskId then some (takenTask (claimArgs req.now)
          ⟨clock c.readings, clock (c.readings + 1)⟩ c.store row) else c.db.tasks.row k := by
      intro k
      rw [htasks, Table.modify_row, htakes.present]
      rfl
    refine ⟨⟨keyed_modify h.keyed htasks fun _ => rfl, ?_, ?_, ?_, ?_, ?_⟩, rfl, ?_, ?_⟩
    · rw [hclaims]
      exact List.nodup_append.2 ⟨h.once, List.nodup_singleton _, by
        rintro a ha b hb rfl
        exact hnew (List.mem_singleton.1 hb ▸ ha)⟩
    · intro tid htid
      rw [hclaims, List.mem_append, List.mem_singleton] at htid
      rw [hrow]
      split_ifs with hk
      · exact ⟨_, rfl, .inl rfl⟩
      · exact h.resting tid (htid.resolve_right hk)
    · intro tid r hr
      rw [hrow] at hr
      rw [hclaims, List.count_append, List.count_singleton]
      split_ifs at hr with hk
      · obtain ⟨r₀, hr₀, hattempts⟩ := h.attempts _ _ htakes.present
        subst hk
        refine ⟨r₀, hr₀, ?_⟩
        rw [← Option.some.inj hr]
        simp only [takenTask, claimedTask, hattempts, beq_self_eq_true, if_true]
        omega
      · obtain ⟨r₀, hr₀, hattempts⟩ := h.attempts _ _ hr
        refine ⟨r₀, hr₀, ?_⟩
        rw [hattempts, if_neg (by simpa using fun h => hk h.symm), Nat.add_zero]
    · intro tid htid
      rw [hclaims]
      exact List.mem_append_left _ (h.deferred tid htid)
    · have hstore : (c.claim req.now clock).2.store = _ := htakes.holder
      rw [hstore]
      exact hunder
    · rw [hclaims]
      exact List.subset_append_left _ _
    · intro task hok
      obtain rfl := Option.some.inj (Except.ok.inj (htakes.answer.symm.trans hok))
      rw [hclaims]
      exact List.mem_append_right _ (List.mem_singleton.2 rfl)

theorem Calm.classify (h : Calm req clock floor start c) (hclock : Monotone clock)
    (ucKey : String → String) (status : String → Option String) (task : TaskRow) :
    Calm req clock floor start (c.classify req.now clock ucKey status task).2 ∧
      (c.classify req.now clock ucKey status task).2.readings ≤ c.readings + 1 ∧
      (c.classify req.now clock ucKey status task).2.claims = c.claims := by
  simp only [Call.classify]
  split_ifs
  · exact ⟨h, by simp, rfl⟩
  · refine ⟨⟨h.keyed, h.once, h.resting, h.attempts, h.deferred, ?_⟩, le_rfl, rfl⟩
    refine (effectiveNow_le h.floored (supplied_le_horizon _) (clock_le_horizon req floor _)).trans ?_
    exact horizon_mono req floor hclock (Nat.le_succ _)

theorem settle_readings (hfloor : c.store.authorityTimeFloor ≤ horizon req clock floor c.readings)
    (hclock : Monotone clock) (tid : ℕ) (change : StateRequest) :
    (c.settle req.now clock tid change).2.readings ≤ c.readings + 2 ∧
      (c.settle req.now clock tid change).2.store.authorityTimeFloor ≤
        horizon req clock floor (c.settle req.now clock tid change).2.readings := by
  have hmono := horizon_mono req floor hclock
  have hcheck := effectiveNow_le hfloor (supplied_le_horizon c.readings)
    (clock_le_horizon req floor c.readings)
  simp only [Call.settle]
  split
  · next e store heq =>
    have hstore := setStateCheck_floor req.now tid change.target (clock c.readings) c.store
      c.db
    rw [heq] at hstore
    refine ⟨by simp, ?_⟩
    rw [show store = _ from hstore]
    exact hcheck.trans (hmono (Nat.le_succ _))
  · next row store heq =>
    have hstore := setStateCheck_floor req.now tid change.target (clock c.readings) c.store
      c.db
    rw [heq] at hstore
    obtain ⟨hwrite, -⟩ := setStateWrite_cases tid change row
      (clock (c.readings + 1)) store c.db
    refine ⟨le_rfl, ?_⟩
    have hlater := hmono (show c.readings ≤ c.readings + 2 by omega)
    have hold : store.authorityTimeFloor ≤ horizon req clock floor (c.readings + 2) := by
      rw [show store = _ from hstore]
      exact hcheck.trans hlater
    rw [hwrite]
    refine effectiveNow_le hold (fun t ht => ?_)
      ((hclock (by omega)).trans (clock_le_horizon req floor (c.readings + 2)))
    obtain rfl := Option.some.inj ht
    exact hold

theorem Calm.settle (h : Calm req clock floor start c) (hclock : Monotone clock) {tid : ℕ}
    {change : StateRequest} (htid : tid ∈ c.claims) (hchange : Settles req.due change) :
    Calm req clock floor start (c.settle req.now clock tid change).2 ∧
      (c.settle req.now clock tid change).2.readings ≤ c.readings + 2 ∧
      (c.settle req.now clock tid change).2.claims = c.claims := by
  obtain ⟨hreadings, hfloor⟩ := settle_readings h.floored hclock tid change
  obtain ⟨hclaims, ⟨-, hdb, hdeferrals⟩ | ⟨⟨r, hr⟩, ⟨current, htasks⟩, hdeferrals⟩⟩ :=
    settle_cases req.now clock tid change c
  · refine ⟨⟨?_, ?_, ?_, ?_, ?_, hfloor⟩, hreadings, hclaims⟩
    · rw [hdb]
      exact h.keyed
    · rw [hclaims]
      exact h.once
    · rw [hclaims, hdb]
      exact h.resting
    · rw [hclaims, hdb]
      exact h.attempts
    · rw [hclaims, hdeferrals]
      exact h.deferred
  · have hrow : ∀ k, (c.settle req.now clock tid change).2.db.tasks.row k =
        if k = tid then some (changedTask change current r) else c.db.tasks.row k := by
      intro k
      rw [htasks, Table.modify_row, hr]
      rfl
    have hfields : (changedTask change current r).attempts = r.attempts ∧
        ∀ r', (changedTask change current r').taskId = r'.taskId := by
      cases change <;> exact ⟨rfl, fun _ => rfl⟩
    refine ⟨⟨keyed_modify h.keyed htasks hfields.2, ?_, ?_, ?_, ?_, hfloor⟩, hreadings, hclaims⟩
    · rw [hclaims]
      exact h.once
    · intro k hk
      rw [hclaims] at hk
      rw [hrow]
      split_ifs with heq
      · exact ⟨_, rfl, hchange.resting r⟩
      · exact h.resting k hk
    · intro k row hk
      rw [hrow] at hk
      rw [hclaims]
      split_ifs at hk with heq
      · rw [← Option.some.inj hk, hfields.1, heq]
        exact h.attempts tid r hr
      · exact h.attempts k row hk
    · intro k hk
      rw [hclaims]
      rw [hdeferrals] at hk
      split at hk
      · rcases List.mem_append.1 hk with hk | hk
        · exact h.deferred k hk
        · exact List.mem_singleton.1 hk ▸ htid
      · exact h.deferred k hk

/-! ## Programs in time -/

/-- The call backs off after every effect of the program, however it ends, and what the program
returns meets `Q`. -/
def Ends {α : Type} (req : Request) (clock : ℕ → ℚ) (ucKey : String → String) (start : TaskDb)
    (program : Lab α) (Q : α → Call → Prop) (c : Call) : Prop :=
  Prog.wp (lab req.now clock ucKey) (BacksOff (callTime req clock) start) Q
    (fun _ c' => BacksOff (callTime req clock) start c') program c

theorem Ends.mono {α : Type} {ucKey : String → String} {program : Lab α} {Q Q' : α → Call → Prop}
    (h : Ends req clock ucKey start program Q c) (himp : ∀ a c', Q a c' → Q' a c') :
    Ends req clock ucKey start program Q' c := Prog.wp_mono himp (fun _ _ => id) h

theorem Ends.bind {α β : Type} {ucKey : String → String} {program : Lab α} {Q : α → Call → Prop}
    {Q' : β → Call → Prop} {next : α → Lab β} (h : Ends req clock ucKey start program Q c)
    (hnext : ∀ a c', Q a c' → Ends req clock ucKey start (next a) Q' c') :
    Ends req clock ucKey start (program >>= next) Q' c := Prog.wp_seq (h.mono hnext)

variable {ucKey : String → String}

/-- The first claim of the call and those behind it. -/
theorem horizon_lt (hclock : Monotone clock) (hfloor : floor < req.due)
    (hlast : clock (5 * (req.scanLimit - 1)) < req.due) {k : ℕ}
    (hk : k ≤ 5 * (req.scanLimit - 1)) : horizon req clock floor k < req.due := by
  refine max_lt (max_lt hfloor ?_) ((hclock hk).trans_lt hlast)
  unfold Request.due
  linarith

variable (hclock : Monotone clock) (htime : callTime req clock ≤ req.now.getD 0)
include hclock htime

theorem ends_claimNext (h : Calm req clock floor start c)
    (hlt : horizon req clock floor c.readings < req.due) :
    Ends req clock ucKey start claimNext
      (fun task? c' => Calm req clock floor start c' ∧ c'.readings = c.readings + 2 ∧
        c.claims ⊆ c'.claims ∧ ∀ task ∈ task?, task.taskId ∈ c'.claims) c := by
  obtain ⟨hcalm, hreadings, hsubset, hmem⟩ := h.claim hclock hlt
  intro choice
  refine ⟨hcalm.backsOff htime, (Prog.wp_ofExcept _).2 ⟨fun task? hok => ?_, fun e _ =>
    hcalm.backsOff htime⟩⟩
  refine ⟨hcalm, hreadings, hsubset, fun task htask => ?_⟩
  obtain rfl := htask
  exact hmem task hok

theorem ends_classify (h : Calm req clock floor start c) (task : TaskRow) :
    Ends req clock ucKey start (DueTasks.classify task)
      (fun _ c' => Calm req clock floor start c' ∧ c'.readings ≤ c.readings + 1 ∧
        c'.claims = c.claims) c := by
  intro choice
  obtain ⟨hcalm, hrest⟩ := h.classify hclock ucKey choice.status task
  exact ⟨hcalm.backsOff htime, (Prog.wp_ofExcept _).2 ⟨fun _ _ => ⟨hcalm, hrest⟩, fun _ _ =>
    hcalm.backsOff htime⟩⟩

theorem ends_settle (h : Calm req clock floor start c) {tid : ℕ} {change : StateRequest}
    (htid : tid ∈ c.claims) (hchange : Settles req.due change) :
    Ends req clock ucKey start (DueTasks.settle tid change)
      (fun _ c' => Calm req clock floor start c' ∧ c'.readings ≤ c.readings + 2 ∧
        c'.claims = c.claims) c := by
  intro choice
  obtain ⟨hcalm, hrest⟩ := h.settle hclock htid hchange
  exact ⟨hcalm.backsOff htime, (Prog.wp_ofExcept _).2 ⟨fun _ _ => ⟨hcalm, hrest⟩, fun _ _ =>
    hcalm.backsOff htime⟩⟩

omit hclock in
theorem ends_prepareRequests (h : Calm req clock floor start c) (tasks : List TaskRow) :
    Ends req clock ucKey start (prepareRequests tasks) (fun _ c' => c' = c) c :=
  fun _ => ⟨h.backsOff htime, rfl⟩

omit hclock in
theorem ends_runValidationBatch (h : Calm req clock floor start c) (tasks : List TaskRow) :
    Ends req clock ucKey start (runValidationBatch tasks) (fun _ c' => c' = c) c :=
  fun _ => ⟨h.backsOff htime, rfl⟩

/-- Of the five readings that a task takes, a probe has two left. -/
theorem ends_probeTasks {cap turns : ℕ} {p : Probe} (h : Calm req clock floor start c)
    (hfloor : floor < req.due) (hlast : clock (5 * (req.scanLimit - 1)) < req.due)
    (hturns : p.counters.tasksExamined + turns ≤ req.scanLimit)
    (hreadings : c.readings + 2 * p.probeTasks.length ≤ 5 * p.counters.tasksExamined)
    (hmem : ∀ t ∈ p.probeTasks, t.taskId ∈ c.claims) :
    Ends req clock ucKey start (probeTasks req cap turns p) (fun p' c' =>
      Calm req clock floor start c' ∧ c.claims ⊆ c'.claims ∧
      p'.counters.tasksExamined ≤ req.scanLimit ∧
      (∀ t ∈ p'.probeTasks, t.taskId ∈ c'.claims) ∧
      c'.readings + 2 * p'.probeTasks.length ≤ 5 * p'.counters.tasksExamined + 2 ∧
      (p'.queueExhausted = false →
        c'.readings + 2 * p'.probeTasks.length ≤ 5 * p'.counters.tasksExamined)) c := by
  induction turns generalizing p c with
  | zero => exact ⟨h, List.Subset.refl _, by omega, hmem, by omega, fun _ => hreadings⟩
  | succ turns ih =>
    rw [probeTasks]
    split_ifs with hcap
    swap
    · exact ⟨h, List.Subset.refl _, by omega, hmem, by omega, fun _ => hreadings⟩
    have hlt : horizon req clock floor c.readings < req.due :=
      horizon_lt hclock hfloor hlast (by omega)
    refine (ends_claimNext hclock htime h hlt).bind fun task? c₁ hc₁ => ?_
    obtain ⟨hcalm₁, hreadings₁, hsub₁, hmem₁⟩ := hc₁
    have hprobes₁ : ∀ t ∈ p.probeTasks, t.taskId ∈ c₁.claims := fun t ht => hsub₁ (hmem t ht)
    cases task? with
    | none =>
      exact ⟨hcalm₁, hsub₁, by simp only; omega, hprobes₁, by simp only; omega, fun hq => by cases hq⟩
    | some task =>
      refine (ends_classify hclock htime hcalm₁ task).bind fun disposition c₂ hc₂ => ?_
      obtain ⟨hcalm₂, hreadings₂, hclaims₂⟩ := hc₂
      have htask₂ : task.taskId ∈ c₂.claims := hclaims₂ ▸ hmem₁ task rfl
      cases disposition with
      | skip reason =>
        refine (ends_settle hclock htime hcalm₂ htask₂ (.inr (.inl rfl))).bind fun _ c₃ hc₃ => ?_
        obtain ⟨hcalm₃, hreadings₃, hclaims₃⟩ := hc₃
        have hsub₃ : c₁.claims ⊆ c₃.claims := by rw [hclaims₃, hclaims₂]; exact List.Subset.refl _
        refine Ends.mono (ih hcalm₃ ?_ ?_ fun t ht => hsub₃ (hprobes₁ t ht)) fun p' c' hc' =>
          ⟨hc'.1, List.Subset.trans hsub₁ (List.Subset.trans hsub₃ hc'.2.1), hc'.2.2⟩
        · simp only [Counters.skipped_tasksExamined]
          omega
        · simp only [Counters.skipped_tasksExamined]
          omega
      | defer reason =>
        refine (ends_settle hclock htime hcalm₂ htask₂ (.inr (.inr ⟨reason, rfl⟩))).bind
          fun _ c₃ hc₃ => ?_
        obtain ⟨hcalm₃, hreadings₃, hclaims₃⟩ := hc₃
        have hsub₃ : c₁.claims ⊆ c₃.claims := by rw [hclaims₃, hclaims₂]; exact List.Subset.refl _
        refine Ends.mono (ih hcalm₃ ?_ ?_ fun t ht => hsub₃ (hprobes₁ t ht)) fun p' c' hc' =>
          ⟨hc'.1, List.Subset.trans hsub₁ (List.Subset.trans hsub₃ hc'.2.1), hc'.2.2⟩
        · simp only [Counters.deferred_tasksExamined]
          omega
        · simp only [Counters.deferred_tasksExamined]
          omega
      | eligible =>
        refine Ends.mono (ih hcalm₂ ?_ ?_ ?_) fun p' c' hc' =>
          ⟨hc'.1, List.Subset.trans hsub₁ (hclaims₂ ▸ hc'.2.1), hc'.2.2⟩
        · simp only
          omega
        · simp only [List.length_append, List.length_singleton]
          omega
        · intro t ht
          rcases List.mem_append.1 ht with ht | ht
          · exact hclaims₂ ▸ hprobes₁ t ht
          · exact List.mem_singleton.1 ht ▸ htask₂

/-- A task backs off in two readings. -/
theorem ends_backOff (h : Calm req clock floor start c) (reason : String) (n : Counters)
    {task : TaskRow} (htask : task.taskId ∈ c.claims) :
    Ends req clock ucKey start (backOff req reason n task) (fun n' c' =>
      Calm req clock floor start c' ∧ c'.readings ≤ c.readings + 2 ∧ c'.claims = c.claims ∧
      n'.tasksExamined = n.tasksExamined) c := by
  unfold backOff
  split_ifs
  · exact (ends_settle hclock htime h htask (.inr (.inl rfl))).bind fun _ c' hc' =>
      ⟨hc'.1, hc'.2.1, hc'.2.2, rfl⟩
  · exact (ends_settle hclock htime h htask (.inr (.inr ⟨reason, rfl⟩))).bind fun _ c' hc' =>
      ⟨hc'.1, hc'.2.1, hc'.2.2, rfl⟩

/-- The loop over a batch takes two readings for each of its tasks. -/
theorem ends_placeProbes (ready : TaskRow → Bool) {tasks : List TaskRow} {s : Scan}
    (h : Calm req clock floor start c) (hexport : ∀ t ∈ s.exportTasks, t.taskId ∈ c.claims)
    (hmem : ∀ t ∈ tasks, t.taskId ∈ c.claims) :
    Ends req clock ucKey start (Prog.forEach (placeProbe req ready) s tasks) (fun s' c' =>
      Calm req clock floor start c' ∧ c'.readings ≤ c.readings + 2 * tasks.length ∧
      s'.counters.tasksExamined = s.counters.tasksExamined ∧
      s'.queueExhausted = s.queueExhausted ∧
      ∀ t ∈ s'.exportTasks, t.taskId ∈ c'.claims) c := by
  induction tasks generalizing s c with
  | nil => exact ⟨h, by simp, rfl, rfl, hexport⟩
  | cons task tasks ih =>
    have htask := hmem task (List.mem_cons_self ..)
    have hrest : ∀ t ∈ tasks, t.taskId ∈ c.claims := fun t ht => hmem t (List.mem_cons_of_mem _ ht)
    rw [Prog.forEach]
    have hplace : Ends req clock ucKey start (placeProbe req ready s task) (fun s' c' =>
        Calm req clock floor start c' ∧ c'.readings ≤ c.readings + 2 ∧ c'.claims = c.claims ∧
        s'.counters.tasksExamined = s.counters.tasksExamined ∧
        s'.queueExhausted = s.queueExhausted ∧
        ∀ t ∈ s'.exportTasks, t.taskId ∈ c'.claims) c := by
      unfold placeProbe
      split_ifs
      · refine ⟨h, by simp, rfl, rfl, rfl, fun t ht => ?_⟩
        rcases List.mem_append.1 ht with ht | ht
        · exact hexport t ht
        · exact List.mem_singleton.1 ht ▸ htask
      · exact (ends_backOff hclock htime h _ _ htask).bind fun n c' hc' =>
          ⟨hc'.1, hc'.2.1, hc'.2.2.1, hc'.2.2.2, rfl, fun t ht => hc'.2.2.1 ▸ hexport t ht⟩
    refine Prog.wp_bind (hplace.mono fun s₁ c₁ hs₁ => ?_)
    obtain ⟨hcalm, hreadings, hclaims, hexamined, hqueue, hexport₁⟩ := hs₁
    refine (ih hcalm hexport₁ fun t ht => hclaims ▸ hrest t ht).mono fun s₂ c₂ hs₂ => ?_
    refine ⟨hs₂.1, ?_, hs₂.2.2.1.trans hexamined, hs₂.2.2.2.1.trans hqueue, hs₂.2.2.2.2⟩
    have hlater := hs₂.2.1
    rw [List.length_cons]
    omega

theorem ends_scanTasks {turns : ℕ} {s : Scan} (h : Calm req clock floor start c)
    (hfloor : floor < req.due) (hlast : clock (5 * (req.scanLimit - 1)) < req.due)
    (hexamined : s.counters.tasksExamined ≤ req.scanLimit)
    (hreadings : c.readings ≤ 5 * s.counters.tasksExamined)
    (hexport : ∀ t ∈ s.exportTasks, t.taskId ∈ c.claims) :
    Ends req clock ucKey start (scanTasks req turns s) (fun s' c' =>
      Calm req clock floor start c' ∧ ∀ t ∈ s'.exportTasks, t.taskId ∈ c'.claims) c := by
  induction turns generalizing s c with
  | zero => exact ⟨h, hexport⟩
  | succ turns ih =>
    rw [scanTasks]
    by_cases hgo : s.exportTasks.length < req.room ∧ s.counters.tasksExamined < req.scanLimit
    swap
    · rw [if_neg hgo]
      exact ⟨h, hexport⟩
    rw [if_pos hgo]
    refine (ends_probeTasks hclock htime h hfloor hlast (by simp only; omega) (by simpa using hreadings)
      (by simp)).bind fun p c₁ hc₁ => ?_
    obtain ⟨hcalm, hsub, hlimit, hprobes, hslack, hexact⟩ := hc₁
    have hexport₁ : ∀ t ∈ s.exportTasks, t.taskId ∈ c₁.claims := fun t ht => hsub (hexport t ht)
    dsimp only
    split_ifs with hempty hqueue
    · exact ⟨hcalm, hexport₁⟩
    · refine ih hcalm hlimit ?_ hexport₁
      have hbound := hexact (by simpa using hqueue)
      simp only at hbound ⊢
      omega
    · refine ih hcalm hlimit ?_ fun t ht => ?_
      · have hpos := List.length_pos_iff.2 hempty
        simp only
        omega
      · rcases List.mem_append.1 ht with ht | ht
        · exact hexport₁ t ht
        · exact hprobes t ht
    · refine (ends_prepareRequests htime hcalm _).bind fun ready c' hc' => ?_
      subst hc'
      refine Ends.bind (ends_placeProbes hclock htime ready hcalm hexport₁ hprobes)
        fun s' c₂ hs' => ?_
      obtain ⟨hcalm₂, hreadings₂, hexamined₂, hqueue₂, hexport₂⟩ := hs'
      split_ifs with hqueue
      · exact ⟨hcalm₂, hexport₂⟩
      · refine ih hcalm₂ (hexamined₂.trans_le hlimit) ?_ hexport₂
        have hbound := hexact (by simpa [hqueue₂] using hqueue)
        simp only at hexamined₂
        omega

omit hclock in
/-- A loop over claimed tasks whose body keeps calm. -/
theorem ends_forEach {body : Counters → TaskRow → Lab Counters} {n : Counters}
    {tasks : List TaskRow} (h : Calm req clock floor start c)
    (hmem : ∀ t ∈ tasks, t.taskId ∈ c.claims)
    (hbody : ∀ (n : Counters) (t : TaskRow) (c' : Call), Calm req clock floor start c' →
      t.taskId ∈ c'.claims → Ends req clock ucKey start (body n t)
        (fun _ c'' => Calm req clock floor start c'' ∧ c''.claims = c'.claims) c') :
    Ends req clock ucKey start (Prog.forEach body n tasks)
      (fun _ c' => BacksOff (callTime req clock) start c') c := by
  refine Ends.mono (Q := fun _ c' => Calm req clock floor start c' ∧ c'.claims = c.claims)
    (Prog.wp_forEach (fun n c' t ht hc' => ?_) ⟨h, rfl⟩) fun _ c' hc' => hc'.1.backsOff htime
  refine Ends.mono (hbody n t c' hc'.1 (hc'.2 ▸ hmem t ht)) fun _ c'' hc'' => ?_
  exact ⟨hc''.1, hc''.2.trans hc'.2⟩

/-- A call that is in time backs off. -/
theorem ends_runDueValidations (h : Calm req clock floor start c)
    (hfloor : floor < req.due) (hlast : clock (5 * (req.scanLimit - 1)) < req.due)
    (hreadings : c.readings = 0) :
    Ends req clock ucKey start (runDueValidations req)
      (fun _ c' => BacksOff (callTime req clock) start c') c := by
  unfold runDueValidations
  refine Ends.bind (ends_scanTasks hclock htime h hfloor hlast (Nat.zero_le _)
    (by simp [hreadings]) (by simp)) fun s c₁ hc₁ => ?_
  obtain ⟨hcalm, hexport⟩ := hc₁
  have hcomplete : ∀ (n : Counters) (t : TaskRow) (c' : Call) (reason : String),
      Calm req clock floor start c' → t.taskId ∈ c'.claims →
      Ends req clock ucKey start
        (do DueTasks.settle t.taskId (.complete none none none reason); pure n)
        (fun _ c'' => Calm req clock floor start c'' ∧ c''.claims = c'.claims) c' :=
    fun n t c' reason hc' ht => (ends_settle hclock htime hc' ht (.inl rfl)).bind
      fun _ c'' hc'' => ⟨hc''.1, hc''.2.2⟩
  dsimp only
  split
  · exact hcalm.backsOff htime
  · split
    · exact ends_forEach htime hcalm hexport fun n t c' => hcomplete n t c' _
    · refine (ends_runValidationBatch htime hcalm _).bind fun verdict c' hc' => ?_
      subst hc'
      refine ends_forEach htime hcalm hexport fun n t c' hc' ht => ?_
      unfold terminalize
      split_ifs
      · exact hcomplete n t c' _ hc' ht
      · exact (ends_backOff hclock htime hc' _ n ht).mono fun _ c'' hc'' => ⟨hc''.1, hc''.2.2.1⟩

end
end ResearchLab.Validation.DueTasks
