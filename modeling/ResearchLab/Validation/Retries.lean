import Mathlib
import ResearchLab.Validation.Backoff

/-!
# Tasks that come back

A backlog whose candidates are not visible yet makes a call defer one task after another. As soon as
the clock passes the time until which it defers, it claims one of them again.
-/
namespace ResearchLab.Validation.DueTasks
open Foundation FarmTasks

/-! ## One turn over a waiting task -/

section
variable {db : TaskDb} {now : Option ℚ} {times : Readings} {store : FarmTasks.Store}

theorem fairLane_claimArgs : fairLane (claimArgs now) =
    .ok (some ("export_validation", validationFreshnessWindowSeconds)) := by
  simp [fairLane, claimArgs, validationFreshnessWindowSeconds, validationFreshSlotEvery]

variable (times store) in
/-- A claim takes a task when one is eligible and none has an owner. -/
theorem claim_succeeds (hkey : Keyed db)
    (hfree : ∀ k r, db.tasks.row k = some r →
      r.claimOwner = none ∧ r.mutationProtocol = "fenced.v2")
    {k : ℕ} {r : TaskRow} (hr : db.tasks.row k = some r)
    (hready : eligible (claimArgs now) (claimTimes (claimArgs now) times store).1 db r = true) :
    ∃ row, TakesTask (claimArgs now) times store db row := by
  refine (claimNextTask_cases _ times store hkey).resolve_left fun hnone => ?_
  cases hmin : firstMin (claimOrder (laneRank
      (some ("export_validation", validationFreshnessWindowSeconds)) (claimArgs now).freshEvery
      (claimTimes (claimArgs now) times store).2 db))
      (db.tasks.toList.filter (eligible (claimArgs now)
        (claimTimes (claimArgs now) times store).1 db)) with
  | none =>
    have hmem : r ∈ db.tasks.toList.filter _ := List.mem_filter.2 ⟨Table.mem_toList.2 ⟨k, hr⟩, hready⟩
    rw [firstMin_eq_none.1 hmin] at hmem
    cases hmem
  | some row =>
    obtain ⟨hmem, -⟩ := List.mem_filter.1 (firstMin_mem hmin)
    obtain ⟨k', hk'⟩ := Table.mem_toList.1 hmem
    obtain rfl := hkey k' row hk'
    obtain ⟨howner, hprotocol⟩ := hfree _ _ hk'
    refine hnone.1 (takenTask (claimArgs now) times store row) ?_
    simp only [claimTimes] at hmin
    have hbudget : budgetUsed (claimArgs now) db = false := rfl
    simp only [claimNextTask, fairLane_claimArgs, hbudget, hmin, Bool.false_eq_true, if_false]
    split
    · next hcas =>
      have hrefused := Table.compareAndSet_eq_none.1 hcas row hk'
      exact absurd ⟨rfl, howner, rfl, hprotocol, rfl⟩ (of_decide_eq_false hrefused)
    · next tasks hcas =>
      obtain ⟨r', hr', -, rfl⟩ := Table.compareAndSet_eq_some.1 hcas
      refine congrArg Except.ok ?_
      change (db.tasks.modify row.taskId (takenTask (claimArgs now) times store)).row row.taskId = _
      rw [Table.modify_row_self, hk']
      rfl

end

section
variable {now : Option ℚ} {clock : ℕ → ℚ} {tid : ℕ} {change : StateRequest} {c : Call}

theorem setStateWrite_lease (row : TaskRow) (observed : ℚ) (store : FarmTasks.Store) (db : TaskDb) :
    (setStateWrite change tid row observed store db).2.1.leaseSeconds = store.leaseSeconds := by
  simp only [setStateWrite]
  split
  · rfl
  · split <;> rfl

variable (now clock tid change c) in
/-- A settlement keeps the lease, and its clock does not go backwards. -/
theorem settle_store :
    (c.settle now clock tid change).2.store.leaseSeconds = c.store.leaseSeconds ∧
      c.store.authorityTimeFloor ≤ (c.settle now clock tid change).2.store.authorityTimeFloor := by
  have hcheck := setStateCheck_floor now tid change.target (clock c.readings) c.store c.db
  have hfloor : c.store.authorityTimeFloor ≤ effectiveNow c.store now (clock c.readings) :=
    floor_le_flooredTime _ _ _
  simp only [Call.settle]
  split
  · next e store heq =>
    rw [heq] at hcheck
    obtain rfl := hcheck
    exact ⟨rfl, hfloor⟩
  · next row store heq =>
    rw [heq] at hcheck
    obtain rfl := hcheck
    refine ⟨setStateWrite_lease row _ _ c.db, ?_⟩
    rw [(setStateWrite_cases tid change row _ _ c.db).1]
    exact hfloor.trans (floor_le_flooredTime _ _ _)

/-- A settlement by the holder of a live claim changes the task. -/
theorem settle_succeeds (due : ℚ) (reason : String) {row : TaskRow} {expires : ℚ}
    (hrow : c.db.tasks.row tid = some row) (howner : row.claimOwner = some c.store.ownerId)
    (hclaim : c.store.claims tid = some row.fencingToken)
    (hexpires : row.claimExpiresAt = some expires) (hprotocol : row.mutationProtocol = "fenced.v2")
    (hunique : ∀ k r, c.db.tasks.row k = some r → r.spec.taskKey = row.spec.taskKey →
      r.taskId = tid)
    (hfirst : effectiveNow c.store now (clock c.readings) < expires)
    (hsecond : effectiveNow (c.store.advance (effectiveNow c.store now (clock c.readings)))
      (some (effectiveNow c.store now (clock c.readings))) (clock (c.readings + 1)) < expires) :
    (c.settle now clock tid (.defer due reason)).1 = .ok () ∧
      (c.settle now clock tid (.defer due reason)).2.readings = c.readings + 2 := by
  have hcheck : setStateCheck tid .deferred now (clock c.readings) c.store c.db =
      (.ok row, c.store.advance (effectiveNow c.store now (clock c.readings))) := by
    simp only [setStateCheck, hrow, howner]
    rw [if_neg]
    simp [hclaim, hexpires, hfirst]
  have hwrite : (setStateWrite (.defer due reason) tid row (clock (c.readings + 1))
      (c.store.advance (effectiveNow c.store now (clock c.readings))) c.db).1 = .ok () := by
    simp only [setStateWrite]
    split
    · next hcas =>
      have hrefused := Table.compareAndSet_eq_none.1 hcas row hrow
      rw [unchangedSince_iff.2] at hrefused
      · cases hrefused
      · refine ⟨rfl, rfl, hprotocol, rfl, ?_⟩
        rw [if_neg (by simp [howner])]
        exact ⟨howner, expires, hexpires, hsecond⟩
    · have hfree : keyTaken c.db row.spec.taskKey (some tid) = false := by
        refine List.any_eq_false.2 fun r hr htaken => ?_
        obtain ⟨k, hk⟩ := Table.mem_toList.1 hr
        obtain ⟨hkey, -, hne⟩ := of_decide_eq_true htaken
        exact hne (congrArg some (hunique k r hk hkey).symm)
      rw [if_neg (by simp [hfree])]
  have htarget : (StateRequest.defer due reason).target = .deferred := rfl
  simp only [Call.settle, htarget, hcheck, hwrite, and_self]

end
/-! ## The backlog -/

/-- A task whose candidate is not visible. -/
def hiddenTask (created : ℚ) (k : ℕ) : TaskRow :=
  newTask
    { spec :=
        { taskKey := String.ofList (List.replicate k 'a')
          taskType := "export_validation"
          payloadJson := "\x7b\"uc_key\": \"uc-1\"\x7d" }
      priority := 100
      sourceEventId := none
      state := .queued
      machineReason := ""
      deferredUntil := none
      ttlSeconds := 0 } k created

def backlog (created : ℚ) (size : ℕ) : TaskDb where
  tasks :=
    { keys := List.range size
      row := fun k => if k < size then some (hiddenTask created k) else none
      nodup := List.nodup_range
      mem_keys := by
        intro k
        by_cases h : k < size <;> simp [h] }
  transitions := []
  outbox := .empty
  claimFairness := fun _ => 0
  claimBudgetUsed := fun _ => false

/-- The payload of a hidden task names a candidate that the table does not hold. -/
def candidateKey : String → String := fun _ => "uc-1"

/-- The task waits, as it was created or deferred by the call. -/
structure Hidden (due created : ℚ) (k : ℕ) (r : TaskRow) : Prop where
  taskId : r.taskId = k
  spec : r.spec = (hiddenTask created k).spec
  created : r.createdAt = created
  free : r.claimOwner = none
  fenced : r.mutationProtocol = "fenced.v2"
  waits : r.state = .queued ∨ (r.state = .deferred ∧ r.deferredUntil = some due)

/-- A call that defers one hidden task after another. -/
structure Backlogged (req : Request) (clock : ℕ → ℚ) (floor created : ℚ) (size : ℕ) (c : Call) :
    Prop where
  hidden : ∀ k r, c.db.tasks.row k = some r → k < size ∧ Hidden req.due created k r
  present : ∀ k < size, ∃ r, c.db.tasks.row k = some r
  untouched : ∀ k r, c.db.tasks.row k = some r → k ∉ c.claims → r.state = .queued
  claimed : ∀ k ∈ c.claims, k < size
  lease : c.store.leaseSeconds = created - floor + 1
  floored : floor ≤ c.store.authorityTimeFloor
  within : c.store.authorityTimeFloor ≤ horizon req clock floor c.readings

section
variable {req : Request} {clock : ℕ → ℚ} {floor created : ℚ} {size : ℕ} {c : Call}

theorem Backlogged.keyed (h : Backlogged req clock floor created size c) : Keyed c.db :=
  fun k r hr => (h.hidden k r hr).2.taskId

variable (created) in
/-- A hidden task is deferred at every time that does not lie behind its creation. -/
theorem classifyTask_hidden {current : ℚ} {r : TaskRow} (h : r.createdAt = created)
    (hle : current ≤ created) :
    classifyTask candidateKey (fun _ => none) current r =
      .defer "validation_candidate_not_yet_visible" := by
  simp only [classifyTask, candidateKey, h]
  rw [if_neg (by decide), if_pos]
  split_ifs
  · simp
  · rw [max_eq_left (by linarith)]
    norm_num

/-- One turn: a task is claimed, and deferred. -/
structure Round (req : Request) (clock : ℕ → ℚ) (c : Call) (task : TaskRow) (c₁ c₂ c₃ : Call) :
    Prop where
  claim : c.claim req.now clock = (.ok (some task), c₁)
  classify : c₁.classify req.now clock candidateKey (fun _ => none) task =
    (.ok (.defer "validation_candidate_not_yet_visible"), c₂)
  settle : c₂.settle req.now clock task.taskId
    (.defer req.due "validation_candidate_not_yet_visible") = (.ok (), c₃)
  claims : c₃.claims = c.claims ++ [task.taskId]
  deferrals : c₃.deferrals = c.deferrals ++ [task.taskId]
  readings : c₃.readings = c.readings + 5
  deferred : ∃ r, c₃.db.tasks.row task.taskId = some r ∧ r.state = .deferred ∧
    r.deferredUntil = some req.due

/-- In the middle of a turn the call holds the task that it claimed and classified. -/
structure Holding (req : Request) (clock : ℕ → ℚ) (floor created : ℚ) (c : Call) (task : TaskRow)
    (c₂ : Call) : Prop where
  rows : ∀ k, c₂.db.tasks.row k = if k = task.taskId then some task else c.db.tasks.row k
  waited : ∃ row, c.db.tasks.row task.taskId = some row ∧ task.spec = row.spec ∧
    task.createdAt = row.createdAt
  owner : task.claimOwner = some c₂.store.ownerId
  claim : c₂.store.claims task.taskId = some task.fencingToken
  expires : ∃ e, task.claimExpiresAt = some e ∧ created < e
  fenced : task.mutationProtocol = "fenced.v2"
  claims : c₂.claims = c.claims ++ [task.taskId]
  deferrals : c₂.deferrals = c.deferrals
  readings : c₂.readings = c.readings + 3
  lease : c₂.store.leaseSeconds = created - floor + 1
  floored : floor ≤ c₂.store.authorityTimeFloor
  within : c₂.store.authorityTimeFloor ≤ horizon req clock floor c₂.readings

theorem Backlogged.hold (h : Backlogged req clock floor created size c) (hclock : Monotone clock)
    (hcreated : horizon req clock floor (c.readings + 5) ≤ created) {k : ℕ} {r : TaskRow}
    (hr : c.db.tasks.row k = some r)
    (hready : eligible (claimArgs req.now) (claimTimes (claimArgs req.now)
      ⟨clock c.readings, clock (c.readings + 1)⟩ c.store).1 c.db r = true) :
    ∃ task c₁ c₂, c.claim req.now clock = (.ok (some task), c₁) ∧
      c₁.classify req.now clock candidateKey (fun _ => none) task =
        (.ok (.defer "validation_candidate_not_yet_visible"), c₂) ∧
      Holding req clock floor created c task c₂ := by
  have hmono := horizon_mono req floor hclock
  obtain ⟨-, hunder⟩ := claimTimes_le hclock h.within
  obtain ⟨row, htakes⟩ := claim_succeeds _ _ h.keyed
    (fun k r hr => ⟨(h.hidden k r hr).2.free, (h.hidden k r hr).2.fenced⟩) hr hready
  obtain ⟨-, hhidden⟩ := h.hidden _ _ htakes.present
  have hlate : floor ≤ (claimTimes (claimArgs req.now)
      ⟨clock c.readings, clock (c.readings + 1)⟩ c.store).2 :=
    h.floored.trans ((floor_le_flooredTime _ _ _).trans (floor_le_flooredTime _ _ _))
  have hclaims : (c.claim req.now clock).2.claims = c.claims ++ [row.taskId] := by
    simp only [Call.claim, htakes.answer]
    rfl
  have hholder : (c.claim req.now clock).2.store = _ := htakes.holder
  have htasks : (c.claim req.now clock).2.db.tasks = _ := htakes.tasks
  -- The classification reads the clock for the third time.
  have hcurrent : effectiveNow (c.claim req.now clock).2.store req.now (clock (c.readings + 2)) ≤
      horizon req clock floor (c.readings + 2) := by
    refine effectiveNow_le ?_ (supplied_le_horizon _) (clock_le_horizon req floor _)
    rw [hholder]
    exact hunder
  refine ⟨_, (c.claim req.now clock).2,
    { (c.claim req.now clock).2 with
      store := (c.claim req.now clock).2.store.advance
        (effectiveNow (c.claim req.now clock).2.store req.now (clock (c.readings + 2)))
      readings := c.readings + 3 }, Prod.ext htakes.answer rfl, ?_, ?_⟩
  · have htype : (takenTask (claimArgs req.now) ⟨clock c.readings, clock (c.readings + 1)⟩ c.store
        row).spec.taskType = "export_validation" := congrArg TaskSpec.taskType hhidden.spec
    rw [Call.classify, if_neg (not_not.2 htype)]
    dsimp only
    rw [classifyTask_hidden created]
    · rfl
    · exact hhidden.created
    · exact hcurrent.trans ((hmono (by omega)).trans hcreated)
  · refine ⟨fun k => ?_, ⟨row, htakes.present, rfl, rfl⟩, ?_, ?_, ⟨_, rfl, ?_⟩, rfl, hclaims, rfl,
      rfl, ?_, ?_, ?_⟩
    · dsimp only
      rw [htasks, Table.modify_row, htakes.present]
      rfl
    · dsimp only
      rw [hholder]
      rfl
    · dsimp only
      rw [hholder]
      simp [takenTask, claimedTask]
    · have hlease := h.lease
      linarith
    · dsimp only
      rw [hholder]
      exact h.lease
    · dsimp only
      rw [hholder]
      exact hlate.trans (floor_le_flooredTime _ _ _)
    · exact hcurrent.trans (hmono (Nat.le_succ _))

/-- Two hidden tasks have different keys. -/
theorem hiddenTask_inj {created : ℚ} {j k : ℕ}
    (h : (hiddenTask created j).spec.taskKey = (hiddenTask created k).spec.taskKey) : j = k := by
  have hlength := congrArg (fun s => s.toList.length) h
  simpa [hiddenTask, newTask] using hlength

theorem Backlogged.round (h : Backlogged req clock floor created size c) (hclock : Monotone clock)
    (hcreated : horizon req clock floor (c.readings + 5) ≤ created) {k : ℕ} {r : TaskRow}
    (hr : c.db.tasks.row k = some r)
    (hready : eligible (claimArgs req.now) (claimTimes (claimArgs req.now)
      ⟨clock c.readings, clock (c.readings + 1)⟩ c.store).1 c.db r = true) :
    ∃ task c₁ c₂ c₃, Round req clock c task c₁ c₂ c₃ ∧
      Backlogged req clock floor created size c₃ := by
  have hmono := horizon_mono req floor hclock
  obtain ⟨task, c₁, c₂, hclaim, hclassify, hhold⟩ := h.hold hclock hcreated hr hready
  obtain ⟨row, hrow, hspec, hage⟩ := hhold.waited
  obtain ⟨hsize, hhidden⟩ := h.hidden _ _ hrow
  obtain ⟨expires, hexpires, hlive⟩ := hhold.expires
  have hreadings := hhold.readings
  have hfirst : effectiveNow c₂.store req.now (clock c₂.readings) ≤ created :=
    (effectiveNow_le hhold.within (supplied_le_horizon _) (clock_le_horizon req floor _)).trans
      ((hmono (by omega)).trans hcreated)
  have hsecond : effectiveNow (c₂.store.advance (effectiveNow c₂.store req.now (clock c₂.readings)))
      (some (effectiveNow c₂.store req.now (clock c₂.readings))) (clock (c₂.readings + 1)) ≤
        created := by
    refine effectiveNow_le hfirst (fun t ht => Option.some.inj ht ▸ hfirst) ?_
    exact (clock_le_horizon req floor _).trans ((hmono (by omega)).trans hcreated)
  have hunique : ∀ k r', c₂.db.tasks.row k = some r' → r'.spec.taskKey = task.spec.taskKey →
      r'.taskId = task.taskId := by
    intro k r' hr' hkey
    rw [hhold.rows] at hr'
    split_ifs at hr' with hk
    · rw [← Option.some.inj hr']
    · obtain ⟨-, hother⟩ := h.hidden k r' hr'
      rw [hother.spec, hspec, hhidden.spec] at hkey
      exact absurd (hiddenTask_inj hkey) hk
  obtain ⟨hok, hreadings₃⟩ := settle_succeeds req.due
    "validation_candidate_not_yet_visible" (by rw [hhold.rows, if_pos rfl])
    hhold.owner hhold.claim hexpires hhold.fenced hunique (hfirst.trans_lt hlive)
    (hsecond.trans_lt hlive)
  obtain ⟨hlease₃, hlater₃⟩ := settle_store req.now clock task.taskId
    (.defer req.due "validation_candidate_not_yet_visible") c₂
  obtain ⟨-, hfloor₃⟩ := settle_readings hhold.within hclock task.taskId
    (.defer req.due "validation_candidate_not_yet_visible")
  obtain ⟨hclaims₃, ⟨⟨e, he⟩, -⟩ | ⟨-, ⟨current, htasks₃⟩, hdeferrals₃⟩⟩ :=
    settle_cases req.now clock task.taskId
      (.defer req.due "validation_candidate_not_yet_visible") c₂
  · rw [hok] at he
    cases he
  have hrow₃ : ∀ k, (c₂.settle req.now clock task.taskId
      (.defer req.due "validation_candidate_not_yet_visible")).2.db.tasks.row k =
      if k = task.taskId then
        some (changedTask (.defer req.due "validation_candidate_not_yet_visible") current task)
      else c.db.tasks.row k := by
    intro k
    rw [htasks₃, Table.modify_row, hhold.rows, hhold.rows, if_pos rfl]
    split_ifs <;> rfl
  rw [hhold.claims] at hclaims₃
  refine ⟨task, c₁, c₂, _, ⟨hclaim, hclassify, Prod.ext hok rfl, hclaims₃, ?_, ?_,
    _, by rw [hrow₃, if_pos rfl], rfl, rfl⟩, ⟨?_, ?_, ?_, ?_, hlease₃.trans hhold.lease,
    hhold.floored.trans hlater₃, hfloor₃⟩⟩
  · rw [hdeferrals₃, hhold.deferrals]
  · rw [hreadings₃, hreadings]
  · intro k r' hr'
    rw [hrow₃] at hr'
    split_ifs at hr' with hk
    · obtain rfl := Option.some.inj hr'
      subst hk
      exact ⟨hsize, rfl, hspec.trans hhidden.spec, hage.trans hhidden.created, rfl, rfl,
        .inr ⟨rfl, rfl⟩⟩
    · exact h.hidden k r' hr'
  · intro k hk
    rw [hrow₃]
    split_ifs
    · exact ⟨_, rfl⟩
    · exact h.present k hk
  · intro k r' hr' hk
    rw [hclaims₃, List.mem_append, List.mem_singleton, not_or] at hk
    rw [hrow₃, if_neg hk.2] at hr'
    exact h.untouched k r' hr' hk.1
  · intro k hk
    rw [hclaims₃, List.mem_append, List.mem_singleton] at hk
    rcases hk with hk | rfl
    · exact h.claimed k hk
    · exact hsize

/-! ## Turn after turn -/

theorem Hidden.eligible {due created t : ℚ} {k : ℕ} {r : TaskRow} (h : Hidden due created k r)
    (ht : r.state = .queued ∨ due ≤ t) (db : TaskDb) (now : Option ℚ) :
    eligible (claimArgs now) t db r = true := by
  refine decide_eq_true ⟨?_, ?_, .inr ?_, by simp [claimArgs]⟩
  · rcases ht with hqueued | hdue
    · exact .inl hqueued
    · exact h.waits.imp id fun hdeferred => ⟨hdeferred.1, due, hdeferred.2, hdue⟩
  · rw [h.spec]
    simp [hiddenTask, newTask]
  · rw [h.spec]
    simp [hiddenTask, newTask, claimArgs]

theorem backlog_backlogged {store : FarmTasks.Store} (hfloor : store.authorityTimeFloor = floor)
    (hlease : store.leaseSeconds = created - floor + 1) :
    Backlogged req clock floor created size { store, db := backlog created size } where
  hidden k r hr := by
    simp only [backlog] at hr
    split_ifs at hr with hk
    obtain rfl := Option.some.inj hr
    exact ⟨hk, rfl, rfl, rfl, rfl, rfl, .inl rfl⟩
  present k hk := ⟨_, if_pos hk⟩
  untouched k r hr _ := by
    simp only [backlog] at hr
    split_ifs at hr with hk
    rw [← Option.some.inj hr]
    rfl
  claimed k hk := by cases hk
  lease := hlease
  floored := hfloor.ge
  within := hfloor.le.trans (le_max_of_le_left (le_max_left _ _))

variable {start : TaskDb} {Q : Probe → Call → Prop}

theorem Ends.of_claimNext {α : Type} {ucKey : String → String} {f : Option TaskRow → Lab α}
    {Q : α → Call → Prop} {task? : Option TaskRow} {c₁ : Call}
    (h : Ends req clock ucKey start (claimNext >>= f) Q c)
    (hclaim : c.claim req.now clock = (.ok task?, c₁)) :
    Ends req clock ucKey start (f task?) Q c₁ := by
  have hrest := (h ⟨fun _ => none, fun _ => false⟩).2
  change Prog.wp _ _ _ _ ((Prog.ofExcept (c.claim req.now clock).1).bind f)
    (c.claim req.now clock).2 at hrest
  rw [hclaim] at hrest
  exact hrest

theorem Ends.of_classify {α : Type} {ucKey : String → String} {f : Disposition → Lab α}
    {Q : α → Call → Prop} {task : TaskRow} {disposition : Disposition}
    {status : String → Option String} {c₁ : Call}
    (h : Ends req clock ucKey start (DueTasks.classify task >>= f) Q c)
    (hclassify : c.classify req.now clock ucKey status task = (.ok disposition, c₁)) :
    Ends req clock ucKey start (f disposition) Q c₁ := by
  have hrest := (h ⟨status, fun _ => false⟩).2
  change Prog.wp _ _ _ _ ((Prog.ofExcept (c.classify req.now clock ucKey status task).1).bind f)
    (c.classify req.now clock ucKey status task).2 at hrest
  rw [hclassify] at hrest
  exact hrest

theorem Ends.of_settle {α : Type} {ucKey : String → String} {f : Unit → Lab α}
    {Q : α → Call → Prop} {tid : ℕ} {change : StateRequest} {c₁ : Call}
    (h : Ends req clock ucKey start (DueTasks.settle tid change >>= f) Q c)
    (hsettle : c.settle req.now clock tid change = (.ok (), c₁)) :
    BacksOff (callTime req clock) start c₁ ∧ Ends req clock ucKey start (f ()) Q c₁ := by
  obtain ⟨hbacks, hrest⟩ := h ⟨fun _ => none, fun _ => false⟩
  change BacksOff _ _ (c.settle req.now clock tid change).2 at hbacks
  change Prog.wp _ _ _ _ ((Prog.ofExcept (c.settle req.now clock tid change).1).bind f)
    (c.settle req.now clock tid change).2 at hrest
  rw [hsettle] at hbacks hrest
  exact ⟨hbacks, hrest⟩

/-- What a call that backs off does after a turn. -/
theorem Round.next {task : TaskRow} {c₁ c₂ c₃ : Call} (h : Round req clock c task c₁ c₂ c₃)
    {cap turns : ℕ} {p : Probe} (hcap : p.probeTasks.length < cap)
    (hends : Ends req clock candidateKey start (probeTasks req cap (turns + 1) p) Q c) :
    BacksOff (callTime req clock) start c₃ ∧ ∃ p' : Probe, p'.probeTasks = p.probeTasks ∧
      Ends req clock candidateKey start (probeTasks req cap turns p') Q c₃ := by
  rw [probeTasks, if_pos hcap] at hends
  have hclassified := (hends.of_claimNext h.claim).of_classify h.classify
  obtain ⟨hbacks, hrest⟩ := hclassified.of_settle h.settle
  refine ⟨hbacks, _, ?_, hrest⟩
  rfl

/-- A call that backs off gets through the whole backlog. -/
theorem rounds (hclock : Monotone clock) (hcreated : horizon req clock floor (5 * size) ≤ created)
    {cap turns : ℕ} {p : Probe} (hcap : 0 < cap) (hprobe : p.probeTasks = [])
    (h : Backlogged req clock floor created size c) (hreadings : c.readings = 0)
    (hclaims : c.claims = [])
    (hends : Ends req clock candidateKey start (probeTasks req cap (turns + size) p) Q c) :
    ∀ i ≤ size, ∃ c' p', Backlogged req clock floor created size c' ∧ c'.claims.length = i ∧
      c'.readings = 5 * i ∧ p'.probeTasks = [] ∧
      Ends req clock candidateKey start (probeTasks req cap (turns + size - i) p') Q c' := by
  intro i
  induction i with
  | zero => exact fun _ => ⟨c, p, h, by simp [hclaims], by simp [hreadings], hprobe, hends⟩
  | succ i ih =>
    intro hi
    obtain ⟨c', p', hback, hlength, hread, hprobe', hends'⟩ := ih (by omega)
    -- Fewer tasks were claimed than there are.
    obtain ⟨k, hk, hfresh⟩ : ∃ k < size, k ∉ c'.claims := by
      by_contra hall
      push Not at hall
      have hsub : List.range size ⊆ c'.claims := fun k hk => hall k (List.mem_range.1 hk)
      have hle := (List.subperm_of_subset List.nodup_range hsub).length_le
      rw [List.length_range, hlength] at hle
      omega
    obtain ⟨r, hr⟩ := hback.present k hk
    obtain ⟨task, c₁, c₂, c₃, hround, hback₃⟩ := hback.round hclock
      ((horizon_mono req floor hclock (by omega)).trans hcreated) hr
      ((hback.hidden k r hr).2.eligible (.inl (hback.untouched k r hr hfresh)) _ _)
    have hturns : turns + size - i = turns + size - (i + 1) + 1 := by omega
    rw [hturns] at hends'
    obtain ⟨-, p₃, hprobe₃, hends₃⟩ := hround.next (by simpa [hprobe'] using hcap) hends'
    refine ⟨c₃, p₃, hback₃, ?_, ?_, hprobe₃.trans hprobe', hends₃⟩
    · rw [hround.claims, List.length_append, hlength, List.length_singleton]
    · rw [hround.readings, hread]
      ring

variable (req) in
theorem scanLimit_pos : 32 ≤ req.scanLimit := by
  simp only [Request.scanLimit, maxValidationScanLimit, minValidationScanLimit]
  omega

/-- The first scan of a call with room. -/
theorem Ends.first_scan {ucKey : String → String} {Q : Counters → Call → Prop} {n : ℕ}
    (hroom : req.room ≠ 0) (hn : req.scanLimit = n)
    (h : Ends req clock ucKey start (runDueValidations req) Q c) :
    ∃ Q', Ends req clock ucKey start
      (probeTasks req (min req.room req.scanLimit) n { counters := {}, queueExhausted := false })
      Q' c := by
  have hpos := scanLimit_pos req
  have hscan := Prog.wp_of_bind h
  obtain ⟨turns, hturns⟩ : ∃ turns, req.scanLimit = turns + 1 := ⟨req.scanLimit - 1, by omega⟩
  rw [show scanTasks req req.scanLimit {} = scanTasks req (turns + 1) {} by rw [← hturns], scanTasks,
    if_pos ⟨by simpa using Nat.pos_of_ne_zero hroom, by simp only; omega⟩] at hscan
  subst hn
  exact ⟨_, Prog.wp_of_bind hscan⟩

/-- The call backs off on every database that a store with this floor may hold. -/
def AlwaysBacksOff (req : Request) (clock : ℕ → ℚ) (floor : ℚ) : Prop :=
  ∀ (ucKey : String → String) (store : FarmTasks.Store) (db : TaskDb),
    store.authorityTimeFloor = floor → Keyed db →
    Ends req clock ucKey db (runDueValidations req)
      (fun _ c => BacksOff (callTime req clock) db c) { store, db }

/-- The call on a backlog. -/
theorem AlwaysBacksOff.on_backlog (h : AlwaysBacksOff req clock floor) (hroom : req.room ≠ 0)
    (created : ℚ) (size : ℕ) : ∃ c Q,
      Backlogged req clock floor created size c ∧ c.readings = 0 ∧ c.claims = [] ∧
      c.deferrals = [] ∧
      Ends req clock candidateKey (backlog created size)
        (probeTasks req (min req.room req.scanLimit) req.scanLimit
          { counters := {}, queueExhausted := false }) Q c := by
  let store : FarmTasks.Store := ⟨"worker", created - floor + 1, floor, fun _ => none⟩
  have hback : Backlogged req clock floor created size { store, db := backlog created size } :=
    backlog_backlogged rfl rfl
  obtain ⟨Q, hQ⟩ := (h candidateKey store (backlog created size) rfl hback.keyed).first_scan hroom rfl
  exact ⟨_, Q, hback, rfl, rfl, rfl, hQ⟩

/-- A call that is not given its time defers until a time long past. -/
theorem callTime_le (hclock : Monotone clock) (hroom : req.room ≠ 0)
    (h : AlwaysBacksOff req clock floor) : callTime req clock ≤ req.now.getD 0 := by
  by_contra hlt
  push Not at hlt
  have hpos := scanLimit_pos req
  obtain ⟨c, Q, hback, hreadings, hclaims, hdeferrals, hends⟩ :=
    h.on_backlog hroom (horizon req clock floor 5) 1
  obtain ⟨r, hr⟩ := hback.present 0 Nat.zero_lt_one
  obtain ⟨task, c₁, c₂, c₃, hround, hback₃⟩ := hback.round hclock (by rw [hreadings]) hr
    ((hback.hidden 0 r hr).2.eligible
      (.inl (hback.untouched 0 r hr (by simp [hclaims]))) _ _)
  obtain ⟨turns, hturns⟩ : ∃ turns, req.scanLimit = turns + 1 := ⟨req.scanLimit - 1, by omega⟩
  rw [hturns] at hends
  obtain ⟨hbacks, -⟩ := hround.next (by simp only [List.length_nil]; omega) hends
  obtain ⟨r₃, hr₃, -, huntil⟩ := hround.deferred
  -- Somebody claims at the time until which the task is deferred.
  let later : FarmTasks.Store := Store.open "other" 300 req.due
  have htime : (claimTimes (claimArgs none) ⟨req.due, req.due⟩ later).1 = req.due := by
    simp [claimTimes, effectiveNow, flooredTime, later, Store.open, claimArgs]
  obtain ⟨row, htakes⟩ := claim_succeeds ⟨req.due, req.due⟩ later hback₃.keyed
    (fun k r hr => ⟨(hback₃.hidden k r hr).2.free, (hback₃.hidden k r hr).2.fenced⟩) hr₃
    ((hback₃.hidden _ _ hr₃).2.eligible (.inr htime.ge) _ _)
  have htask := (hback₃.hidden _ _ hr₃).1
  have hrow := (hback₃.hidden _ _ htakes.present).1
  refine hbacks.waits task.taskId (by simp [hround.deferrals]) _ _ _ _ ?_ htakes.answer ?_
  · rw [htime, Request.due]
    linarith
  · change row.taskId = task.taskId
    omega

/-- A call that may still claim at the time until which it defers claims a task again. -/
theorem before_due (hclock : Monotone clock) (hroom : req.room ≠ 0)
    (h : AlwaysBacksOff req clock floor) :
    floor < req.due ∧ clock (5 * (req.scanLimit - 1)) < req.due := by
  by_contra hlate
  have hpos := scanLimit_pos req
  obtain ⟨c, Q, hback, hreadings, hclaims, -, hends⟩ :=
    h.on_backlog hroom (horizon req clock floor (5 * req.scanLimit)) (req.scanLimit - 1)
  have hmono := horizon_mono req floor hclock
  have hcap : 0 < min req.room req.scanLimit := by omega
  have hends₁ : Ends req clock candidateKey
      (backlog (horizon req clock floor (5 * req.scanLimit)) (req.scanLimit - 1))
      (probeTasks req (min req.room req.scanLimit) (1 + (req.scanLimit - 1))
        { counters := {}, queueExhausted := false }) Q c := by
    have hturns : 1 + (req.scanLimit - 1) = req.scanLimit := by omega
    rw [hturns]
    exact hends
  obtain ⟨c', p', hback', hlength, hread, hprobe, hends'⟩ := rounds hclock
    (hmono (by omega)) hcap rfl hback hreadings hclaims hends₁ _ le_rfl
  obtain ⟨r, hr⟩ := hback'.present 0 (by omega)
  have hdue : req.due ≤ (claimTimes (claimArgs req.now)
      ⟨clock c'.readings, clock (c'.readings + 1)⟩ c'.store).1 := by
    by_contra hearly
    push Not at hearly
    refine hlate ⟨(hback'.floored.trans (floor_le_flooredTime _ _ _)).trans_lt hearly, ?_⟩
    have hobserved := (le_claimTimes (claimArgs req.now)
      ⟨clock c'.readings, clock (c'.readings + 1)⟩ c'.store).1
    rw [← hread]
    exact hobserved.trans_lt hearly
  obtain ⟨task, c₁, c₂, c₃, hround, hback₃⟩ := hback'.round hclock (hmono (by omega)) hr
    ((hback'.hidden 0 r hr).2.eligible (.inr hdue) _ _)
  rw [show 1 + (req.scanLimit - 1) - (req.scanLimit - 1) = 0 + 1 by omega] at hends'
  obtain ⟨hbacks, -⟩ := hround.next (by rw [hprobe, List.length_nil]; omega) hends'
  have hsub : c₃.claims ⊆ List.range (req.scanLimit - 1) :=
    fun k hk => List.mem_range.2 (hback₃.claimed k hk)
  have hle := (List.subperm_of_subset hbacks.once hsub).length_le
  rw [hround.claims, List.length_append, hlength, List.length_singleton, List.length_range] at hle
  omega

end

/-- A backlog of one task whose deferral is over at once. -/
theorem claimed_twice {req : Request} {clock : ℕ → ℚ} {floor created : ℚ} (hclock : Monotone clock)
    (hroom : req.room ≠ 0) (hdue : req.due ≤ floor) (hcreated : horizon req clock floor 10 ≤ created)
    {store : FarmTasks.Store} (hfloor : store.authorityTimeFloor = floor)
    (hlease : store.leaseSeconds = created - floor + 1) :
    ¬ Ends req clock candidateKey (backlog created 1) (runDueValidations req)
      (fun _ c => BacksOff (callTime req clock) (backlog created 1) c)
      { store, db := backlog created 1 } := by
  intro h
  have hpos := scanLimit_pos req
  have hmono := horizon_mono req floor hclock
  have hback : Backlogged req clock floor created 1 { store, db := backlog created 1 } :=
    backlog_backlogged hfloor hlease
  obtain ⟨n, hn⟩ : ∃ n, req.scanLimit = n + 2 := ⟨req.scanLimit - 2, by omega⟩
  obtain ⟨Q, hends⟩ := h.first_scan hroom hn
  have hcap : 0 < min req.room req.scanLimit := by omega
  have hready : ∀ {c : Call} {r : TaskRow}, Backlogged req clock floor created 1 c →
      c.db.tasks.row 0 = some r → eligible (claimArgs req.now) (claimTimes (claimArgs req.now)
        ⟨clock c.readings, clock (c.readings + 1)⟩ c.store).1 c.db r = true :=
    fun hback hr => (hback.hidden 0 _ hr).2.eligible
      (.inr (hdue.trans (hback.floored.trans (floor_le_flooredTime _ _ _)))) _ _
  obtain ⟨r, hr⟩ := hback.present 0 Nat.zero_lt_one
  obtain ⟨task, _, _, c, hround, hback⟩ := hback.round hclock ((hmono (by simp)).trans hcreated) hr
    (hready hback hr)
  obtain ⟨-, p, hprobe, hends⟩ := hround.next (by simpa using hcap) hends
  have hreadings := hround.readings
  obtain ⟨r, hr⟩ := hback.present 0 Nat.zero_lt_one
  obtain ⟨task', _, _, c', hround', hback'⟩ := hback.round hclock
    ((hmono (by simp only at hreadings; omega)).trans hcreated) hr (hready hback hr)
  obtain ⟨hbacks, -⟩ := hround'.next (by simpa [hprobe] using hcap) hends
  have hsub : c'.claims ⊆ List.range 1 := fun k hk => List.mem_range.2 (hback'.claimed k hk)
  have hle := (List.subperm_of_subset hbacks.once hsub).length_le
  rw [hround'.claims, hround.claims] at hle
  simp at hle

/-- The exact condition under which validation tasks are tried once in a call and then back off. -/
theorem alwaysBacksOff_iff {clock : ℕ → ℚ} (hclock : Monotone clock) (req : Request) (floor : ℚ) :
    AlwaysBacksOff req clock floor ↔ Timely req clock floor := by
  constructor
  · intro h
    by_cases hroom : req.room = 0
    · exact .inl hroom
    · exact .inr ⟨callTime_le hclock hroom h, before_due hclock hroom h⟩
  · rintro (hroom | ⟨htime, hfloor, hlast⟩) ucKey store db rfl hkey
    · have hscan : scanTasks req req.scanLimit {} = pure {} := by
        cases req.scanLimit with
        | zero => rfl
        | succ n => rw [scanTasks, if_neg (by simp [hroom])]
      unfold runDueValidations
      rw [hscan]
      refine ⟨List.nodup_nil, fun tid row row' hrow hrow' => ?_, by simp⟩
      rw [← Option.some.inj (hrow.symm.trans hrow')]
      exact Nat.le_succ _
    · refine ends_runDueValidations hclock htime ⟨hkey, List.nodup_nil, by simp, ?_, by simp, ?_⟩
        hfloor hlast rfl
      · exact fun tid row hrow => ⟨row, hrow, rfl⟩
      · exact le_max_of_le_left (le_max_left _ _)

/-- A worker that passes the time to a call with room for ten tasks, on a clock that advances. -/
theorem alwaysBacksOff_given_time :
    AlwaysBacksOff ⟨true, 10, some 1000⟩ (fun k => 1000 + k / 10) 1000 :=
  (alwaysBacksOff_iff (fun i j hij => by
    have hcast : (i : ℚ) ≤ j := Nat.cast_le.2 hij
    linarith) _ _).2 (.inr ⟨le_rfl, by decide +kernel, by decide +kernel⟩)

/-- Without a time the deferral ends 300 seconds after the epoch. -/
theorem claimed_twice_without_time :
    ¬ Ends ⟨true, 1, none⟩ (fun k => 1000 + k) candidateKey (backlog 1299 1)
      (runDueValidations ⟨true, 1, none⟩)
      (fun _ c => BacksOff (callTime ⟨true, 1, none⟩ fun k => 1000 + k) (backlog 1299 1) c)
      { store := ⟨"worker", 300, 1000, fun _ => none⟩, db := backlog 1299 1 } :=
  claimed_twice (fun i j hij => by
    have hcast : (i : ℚ) ≤ j := Nat.cast_le.2 hij
    linarith) (by decide) (by decide +kernel) (by decide +kernel) rfl (by decide +kernel)

end ResearchLab.Validation.DueTasks
