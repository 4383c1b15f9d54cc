import Mathlib
import ResearchLab.ComputeQueue.Fencing

/-!
# One job for identical content

The compute queue filled by content: every job is queued by `ensure_experiment_queued` with
a materialization id and the digest of the spec file, which never changes. The recovery path
of a lost insertion is also a move of its own, at any time.
-/
namespace ResearchLab.ComputeQueue
open Foundation

/-- A call with a materialization id and the digest of its spec file. -/
structure ContentCall (fileDigest : String → Option String) (args : EnqueueArgs)
    (id digest : String) : Prop where
  hasId : args.materializationId = some id
  id_ne : id ≠ ""
  hasDigest : args.materializationDigest = some digest
  content : fileDigest args.specPath = some digest

/-- Every caller in the farm builds its id as `task:<id>:fence:<fence>`, so ids are not
empty. -/
def Action.byContent (fileDigest : String → Option String) : Action → Prop
  | .enqueue .. => False
  | .ensure args read _ => read = fileDigest ∧ ∃ id digest, ContentCall fileDigest args id digest
  | .ensureRecovery args read _ =>
      read = fileDigest ∧ ∃ id digest, ContentCall fileDigest args id digest
  | _ => True

def contentQueue (fileDigest : String → Option String) : Machine Farm Action where
  init := computeQueue.init
  enabled s a := s.enabled a ∧ a.byContent fileDigest
  step := Farm.step

/-- What holds of the queue and its bindings. -/
structure Materialized (fileDigest : String → Option String) (db : QueueDb) : Prop where
  key : ∀ j row, db.queue.row j = some row → row.jobId = j
  digest : ∀ j row, db.queue.row j = some row →
    ∃ d, row.materializationDigest = some d ∧ fileDigest row.specPath = some d
  active : ∀ j k row row', db.queue.row j = some row → db.queue.row k = some row' →
    row.specPath = row'.specPath → activeStatus row.status = true →
    activeStatus row'.status = true → j = k
  bound : ∀ id m, db.materializations.row id = some m → ∃ row, db.queue.row m.jobId = some row ∧
    row.specPath = m.specPath ∧ row.materializationDigest = some m.specDigest

variable {fileDigest : String → Option String} {db db' : QueueDb} {args : EnqueueArgs}
  {id digest utc : String}

theorem terminal_of_not_active {status : JobStatus} (h : activeStatus status = false) :
    status.terminal = true := by
  cases status <;> simp_all [activeStatus, JobStatus.terminal]

/-- A move finds the row that was there: same content, and active only if it was. -/
theorem QueueMoves.row_before (h : QueueMoves db db') {j : ℕ} {row' : JobRow}
    (hrow' : db'.queue.row j = some row') :
    ∃ row, db.queue.row j = some row ∧ SameContent row row' ∧
      (activeStatus row'.status = true → activeStatus row.status = true) := by
  have hjob := h.jobs j
  cases hrow : db.queue.row j with
  | none =>
    have hv := congrArg JobView.row (hjob.absent hrow)
    simp only [QueueDb.view] at hv
    rw [hv, hrow] at hrow'
    cases hrow'
  | some row =>
    obtain ⟨row₁, hrow₁, hsame⟩ := hjob.content hrow
    obtain rfl : row₁ = row' := Option.some.inj (hrow₁.symm.trans hrow')
    refine ⟨row, rfl, hsame, fun hact => ?_⟩
    by_contra hinactive
    have hterm := terminal_of_not_active (Bool.eq_false_iff.2 hinactive)
    have hv := congrArg JobView.row (hjob.steps.terminal hrow hterm)
    simp only [QueueDb.view, hrow, hrow'] at hv
    obtain rfl := Option.some.inj hv
    exact hinactive hact

theorem QueueMoves.row_after (h : QueueMoves db db') {j : ℕ} {row : JobRow}
    (hrow : db.queue.row j = some row) :
    ∃ row', db'.queue.row j = some row' ∧ SameContent row row' := (h.jobs j).content hrow

theorem Materialized.moves (h : Materialized fileDigest db) (hm : QueueMoves db db') :
    Materialized fileDigest db' where
  key j row' hrow' := by
    obtain ⟨row, hrow, hsame, -⟩ := hm.row_before hrow'
    exact hsame.jobId.trans (h.key j row hrow)
  digest j row' hrow' := by
    obtain ⟨row, hrow, hsame, -⟩ := hm.row_before hrow'
    obtain ⟨d, hd, hfile⟩ := h.digest j row hrow
    exact ⟨d, hsame.digest.trans hd, hsame.specPath ▸ hfile⟩
  active j k row₁' row₂' h₁' h₂' hpath hact₁ hact₂ := by
    obtain ⟨row₁, h₁, hsame₁, hback₁⟩ := hm.row_before h₁'
    obtain ⟨row₂, h₂, hsame₂, hback₂⟩ := hm.row_before h₂'
    exact h.active j k row₁ row₂ h₁ h₂
      (hsame₁.specPath.symm.trans (hpath.trans hsame₂.specPath)) (hback₁ hact₁) (hback₂ hact₂)
  bound id m hbind := by
    rw [hm.bindings] at hbind
    obtain ⟨row, hrow, hpath, hdigest⟩ := h.bound id m hbind
    obtain ⟨row', hrow', hsame⟩ := hm.row_after hrow
    exact ⟨row', hrow', hsame.specPath.trans hpath, hsame.digest.trans hdigest⟩

/-! ## What the scans of the queue find -/

/-- The job that a call may share is a job of its content that has not failed. -/
theorem reusableJob_some (hinv : Materialized fileDigest db)
    (hcall : ContentCall fileDigest args id digest) {row : JobRow}
    (h : reusableJob args db = .ok (some row)) :
    db.queue.row row.jobId = some row ∧ row.specPath = args.specPath ∧
      row.materializationDigest = some digest ∧ row.status ≠ .failed := by
  have hrow : (∃ k, db.queue.row k = some row) ∧ row.specPath = args.specPath ∧
      row.status ≠ .failed := by
    simp only [reusableJob, hcall.hasId] at h
    split at h
    · next active hfind =>
      split_ifs at h
      obtain rfl : active = row := by simpa using h
      have hp := List.find?_some hfind
      simp only [decide_eq_true_eq] at hp
      refine ⟨Table.mem_toList.1 (List.mem_of_find?_eq_some hfind), hp.1, fun hf => ?_⟩
      simp [hf, activeStatus] at hp
    · next hfind =>
      have hfind := Except.ok.inj h
      have hp := List.find?_some hfind
      simp only [decide_eq_true_eq] at hp
      exact ⟨Table.mem_toList.1 (List.mem_of_find?_eq_some hfind), hp.1, by simp [hp.2.1]⟩
  obtain ⟨⟨k, hk⟩, hpath, hstatus⟩ := hrow
  obtain ⟨d, hd, hfile⟩ := hinv.digest k row hk
  refine ⟨by rw [hinv.key k row hk]; exact hk, hpath, ?_, hstatus⟩
  rw [hpath, hcall.content] at hfile
  rw [hd, hfile]

/-- Without such a job, every job of the spec path has failed. -/
theorem reusableJob_none (hinv : Materialized fileDigest db)
    (hcall : ContentCall fileDigest args id digest)
    (h : reusableJob args db = .ok none) {j : ℕ} {row : JobRow}
    (hrow : db.queue.row j = some row) (hpath : row.specPath = args.specPath) :
    row.status = .failed := by
  have hmem : row ∈ db.queue.toList := Table.mem_toList.2 ⟨j, hrow⟩
  obtain ⟨d, hd, hfile⟩ := hinv.digest j row hrow
  rw [hpath, hcall.content] at hfile
  obtain rfl : digest = d := Option.some.inj hfile
  simp only [reusableJob, hcall.hasId, hcall.hasDigest, Option.getD_some] at h
  split at h
  · split_ifs at h
    cases h
  · next hfind =>
    have hcompleted := Except.ok.inj h
    have h₁ := List.find?_eq_none.1 hfind row hmem
    have h₂ := List.find?_eq_none.1 hcompleted row hmem
    cases hs : row.status <;> simp [hpath, hd, hs, activeStatus] at h₁ h₂ ⊢

theorem bindingMatches_iff {m : MaterializationRow} {q : JobRow}
    (hdigest : args.materializationDigest = some digest) :
    bindingMatches args (m, q) = true ↔ m.specPath = args.specPath ∧ m.specDigest = digest ∧
      q.materializationDigest.getD "" = digest := by
  simp [bindingMatches, hdigest]

theorem Materialized.bindingOf_eq (hinv : Materialized fileDigest db) {id : String}
    {m : MaterializationRow} (hm : db.materializations.row id = some m) :
    ∃ q, bindingOf db id = some (m, q) ∧ q.materializationDigest = some m.specDigest := by
  obtain ⟨q, hq, -, hdigest⟩ := hinv.bound id m hm
  exact ⟨q, by simp [bindingOf, hm, hq], hdigest⟩

theorem bindingOf_eq_none (hinv : Materialized fileDigest db) {id : String} :
    bindingOf db id = none ↔ db.materializations.row id = none := by
  cases hm : db.materializations.row id with
  | none => simp [bindingOf, hm]
  | some m =>
    obtain ⟨q, hq, -⟩ := hinv.bindingOf_eq hm
    simp [hq]

/-! ## The effect of a call -/

/-- The recovery path has no effect of its own. -/
theorem ensureRecovery_effect (hinv : Materialized fileDigest db)
    (hcall : ContentCall fileDigest args id digest) (utc : String) :
    EnsureEffect args fileDigest utc db (ensureRecovery args fileDigest utc db).1
        (ensureRecovery args fileDigest utc db).2 ∨
      ensureRecovery args fileDigest utc db = (.error .integrity, db) := by
  simp only [ensureRecovery, hcall.hasId, Option.bind_some]
  split
  · next binding hbind =>
    left
    split
    · exact .raised (by simp [rebound])
    next hmatch =>
    split
    · next he => exact .raised (assertCurrentContent_ne_integrity he)
    · exact .repeated hcall.hasId hbind (by simpa using hmatch)
  next hunbound =>
  split
  · next he => exact .inl (.raised (assertCurrentContent_ne_integrity he))
  split
  · next he => exact .inl (.raised (reusableJob_ne_integrity he))
  · exact .inr rfl
  next row hrow =>
  left
  obtain ⟨hjob, hpath, hdigest, -⟩ := reusableJob_some hinv hcall hrow
  have hfree := (bindingOf_eq_none hinv).1 hunbound
  have hmatch : bindingMatches args (⟨row.jobId, args.specPath, digest, utc⟩, row) = true :=
    (bindingMatches_iff hcall.hasDigest).2 ⟨rfl, rfl, by simp [hdigest]⟩
  simp only [hcall.hasDigest, Option.getD_some, bindingOf, Table.insert_row_self hfree, hjob,
    Option.map_some, hmatch, if_true]
  refine .aliased hcall.hasId hrow ?_
  simp [insertMaterialization, Table.insertNew, hfree, hcall.hasDigest]

/-- No insertion of a content call is ever lost. -/
theorem EnsureEffect.ne_integrity (hinv : Materialized fileDigest db)
    (hcall : ContentCall fileDigest args id digest) {reply : Except JobError (ℕ × Bool)}
    (h : EnsureEffect args fileDigest utc db reply db') : reply ≠ .error .integrity := by
  cases h with
  | raised ne => simpa using ne
  | lostJob reusable insert =>
    unfold insertJob at insert
    split_ifs at insert with hactive
    obtain ⟨-, hany⟩ := hactive
    obtain ⟨row, hrow, hp⟩ := List.any_eq_true.1 hany
    obtain ⟨hpath, hact⟩ := of_decide_eq_true hp
    obtain ⟨k, hk⟩ := Table.mem_toList.1 hrow
    have := reusableJob_none hinv hcall reusable hk hpath
    simp [this, activeStatus] at hact
  | lostBinding _ unbound taken => exact absurd ((bindingOf_eq_none hinv).1 unbound) taken
  | repeated => simp
  | shared => simp
  | aliased => simp
  | created => simp

theorem ensureExperimentQueued_effect (hinv : Materialized fileDigest db)
    (hcall : ContentCall fileDigest args id digest) (utc : String) :
    EnsureEffect args fileDigest utc db (ensureExperimentQueued args fileDigest utc db).1
      (ensureExperimentQueued args fileDigest utc db).2 := by
  have heffect := ensureTransaction_effect args fileDigest utc db
  have hne := heffect.ne_integrity hinv hcall
  unfold ensureExperimentQueued
  split
  · next heq => simp [heq] at hne
  · exact heffect

/-- What a content call leaves behind: nothing when it raises; else its id is bound to the job
it returns, and that job carries its path and digest. -/
theorem EnsureEffect.bound (hinv : Materialized fileDigest db)
    (hcall : ContentCall fileDigest args id digest) {reply : Except JobError (ℕ × Bool)}
    (h : EnsureEffect args fileDigest utc db reply db') :
    (∀ e, reply = .error e → db' = db) ∧
    (∀ j created, reply = .ok (j, created) →
      ∃ m row, db'.materializations.row id = some m ∧ m.jobId = j ∧
        m.specPath = args.specPath ∧ m.specDigest = digest ∧ db'.queue.row j = some row ∧
        row.specPath = args.specPath ∧ row.materializationDigest = some digest) := by
  cases h with
  | raised => exact ⟨fun _ _ => rfl, by simp⟩
  | lostJob => exact ⟨fun _ _ => rfl, by simp⟩
  | lostBinding => exact ⟨fun _ _ => rfl, by simp⟩
  | @repeated id' m q hid binding same =>
    obtain rfl : id' = id := Option.some.inj (hid.symm.trans hcall.hasId)
    obtain ⟨hm, hq⟩ := bindingOf_job binding
    obtain ⟨hpath, hdigest, hqd⟩ := (bindingMatches_iff hcall.hasDigest).1 same
    obtain ⟨row, hrow, hrpath, hrdigest⟩ := hinv.bound _ m hm
    refine ⟨by simp, fun j created hreply => ?_⟩
    obtain ⟨rfl, -⟩ : m.jobId = j ∧ false = created := by simpa using hreply
    exact ⟨m, row, hm, rfl, hpath, hdigest, hrow, hrpath.trans hpath,
      hrdigest.trans (congrArg some hdigest)⟩
  | shared noId => simp [hcall.hasId] at noId
  | @aliased id' row db' hid reusable bind =>
    obtain rfl : id' = id := Option.some.inj (hid.symm.trans hcall.hasId)
    obtain ⟨hfree, rfl⟩ := insertMaterialization_eq_some bind
    obtain ⟨hjob, hpath, hdigest, -⟩ := reusableJob_some hinv hcall reusable
    refine ⟨by simp, fun j created hreply => ?_⟩
    obtain ⟨rfl, -⟩ : row.jobId = j ∧ false = created := by simpa using hreply
    exact ⟨_, row, Table.insert_row_self hfree _, rfl, rfl, by simp [hcall.hasDigest], hjob,
      hpath, hdigest⟩
  | @created d db₁ db' hd content reusable insert bind =>
    simp only [hcall.hasId, Option.bind_some, if_neg hcall.id_ne, hcall.hasDigest,
      Option.getD_some] at hd bind
    obtain ⟨rfl, -⟩ := insertJob_eq_some insert
    obtain ⟨hfree, rfl⟩ := insertMaterialization_eq_some bind
    refine ⟨by simp, fun j created hreply => ?_⟩
    obtain ⟨rfl, -⟩ : db.queue.nextKey = j ∧ true = created := by simpa using hreply
    refine ⟨_, _, Table.insert_row_self hfree _, rfl, rfl, rfl,
      Table.insert_row_self (Table.row_nextKey _) _, rfl, hd⟩

/-- A new job takes its spec path only when every earlier job of it has failed. -/
theorem EnsureEffect.new_job (hinv : Materialized fileDigest db)
    (hcall : ContentCall fileDigest args id digest) {reply : Except JobError (ℕ × Bool)}
    (h : EnsureEffect args fileDigest utc db reply db') {j : ℕ} {row' : JobRow}
    (hnone : db.queue.row j = none) (hrow' : db'.queue.row j = some row') :
    row'.specPath = args.specPath ∧ ∀ k row, db.queue.row k = some row →
      row.specPath = row'.specPath → row.status = .failed := by
  cases h with
  | raised => simp [hnone] at hrow'
  | lostJob => simp [hnone] at hrow'
  | lostBinding => simp [hnone] at hrow'
  | repeated => simp [hnone] at hrow'
  | shared => simp [hnone] at hrow'
  | aliased _ _ bind =>
    obtain ⟨-, rfl⟩ := insertMaterialization_eq_some bind
    simp [hnone] at hrow'
  | created _ _ reusable insert bind =>
    simp only [hcall.hasId] at bind
    obtain ⟨rfl, -⟩ := insertJob_eq_some insert
    obtain ⟨-, rfl⟩ := insertMaterialization_eq_some bind
    by_cases hj : j = db.queue.nextKey
    · subst hj
      obtain rfl : queuedRow args db.queue.nextKey _ utc = row' :=
        Option.some.inj ((Table.insert_row_self (Table.row_nextKey _) _).symm.trans hrow')
      exact ⟨rfl, fun k row hk hpath => reusableJob_none hinv hcall reusable hk hpath⟩
    · simp [queuedRow, Table.insert_row_of_ne hj, hnone] at hrow'

theorem EnsureEffect.binding_kept {reply : Except JobError (ℕ × Bool)}
    (h : EnsureEffect args fileDigest utc db reply db') {id : String} {m : MaterializationRow}
    (hm : db.materializations.row id = some m) : db'.materializations.row id = some m := by
  cases h with
  | raised => exact hm
  | lostJob => exact hm
  | lostBinding => exact hm
  | repeated => exact hm
  | shared => exact hm
  | aliased _ _ bind =>
    obtain ⟨-, rfl⟩ := insertMaterialization_eq_some bind
    exact Table.insert_row_some hm
  | created _ _ _ insert bind =>
    obtain ⟨rfl, -⟩ := insertJob_eq_some insert
    split at bind
    · exact bind ▸ hm
    · obtain ⟨-, rfl⟩ := insertMaterialization_eq_some bind
      exact Table.insert_row_some hm

theorem Materialized.bind (h : Materialized fileDigest db) {id : String}
    {m : MaterializationRow} (hfree : db.materializations.row id = none)
    (hm : ∃ row, db.queue.row m.jobId = some row ∧ row.specPath = m.specPath ∧
      row.materializationDigest = some m.specDigest) :
    Materialized fileDigest { db with materializations := db.materializations.insert id m } where
  key := h.key
  digest := h.digest
  active := h.active
  bound id' m' hm' := by
    rw [Table.insert_row hfree] at hm'
    split_ifs at hm' with hid
    · obtain rfl := Option.some.inj hm'
      exact hm
    · exact h.bound id' m' hm'

theorem Materialized.insert (h : Materialized fileDigest db) (row : JobRow)
    (hjob : row.jobId = db.queue.nextKey)
    (hdigest : row.materializationDigest = some digest)
    (hfile : fileDigest row.specPath = some digest)
    (hfailed : ∀ k r, db.queue.row k = some r → r.specPath = row.specPath →
      r.status = .failed) :
    Materialized fileDigest { db with queue := db.queue.insert row.jobId row } := by
  have hnone : db.queue.row row.jobId = none := hjob ▸ Table.row_nextKey _
  have hold : ∀ {j r}, (db.queue.insert row.jobId row).row j = some r →
      (j = row.jobId ∧ r = row) ∨ db.queue.row j = some r := by
    intro j r hr
    rw [Table.insert_row hnone] at hr
    split_ifs at hr with hj
    · exact Or.inl ⟨hj, (Option.some.inj hr).symm⟩
    · exact Or.inr hr
  have hinactive : ∀ {k r}, db.queue.row k = some r → r.specPath = row.specPath →
      activeStatus r.status = true → False := by
    intro k r hk hpath hact
    simp [hfailed k r hk hpath, activeStatus] at hact
  refine ⟨fun j r hr => ?_, fun j r hr => ?_, fun j k r r' hr hr' hpath ha ha' => ?_,
    fun id m hm => ?_⟩
  · rcases hold hr with ⟨rfl, rfl⟩ | hr
    · rfl
    · exact h.key j r hr
  · rcases hold hr with ⟨rfl, rfl⟩ | hr
    · exact ⟨digest, hdigest, hfile⟩
    · exact h.digest j r hr
  · rcases hold hr with ⟨rfl, rfl⟩ | ho
    · rcases hold hr' with ⟨rfl, rfl⟩ | ho'
      · rfl
      · exact (hinactive ho' hpath.symm ha').elim
    · rcases hold hr' with ⟨rfl, rfl⟩ | ho'
      · exact (hinactive ho hpath ha).elim
      · exact h.active j k r r' ho ho' hpath ha ha'
  · obtain ⟨r, hr, hrest⟩ := h.bound id m hm
    exact ⟨r, Table.insert_row_some hr, hrest⟩

theorem EnsureEffect.materialized (hinv : Materialized fileDigest db)
    (hcall : ContentCall fileDigest args id digest) {reply : Except JobError (ℕ × Bool)}
    (h : EnsureEffect args fileDigest utc db reply db') : Materialized fileDigest db' := by
  cases h with
  | raised => exact hinv
  | lostJob => exact hinv
  | lostBinding => exact hinv
  | repeated => exact hinv
  | shared => exact hinv
  | aliased hid reusable bind =>
    obtain ⟨hfree, rfl⟩ := insertMaterialization_eq_some bind
    obtain ⟨hjob, hpath, hdigest, -⟩ := reusableJob_some hinv hcall reusable
    exact hinv.bind hfree ⟨_, hjob, hpath, by simp [hdigest, hcall.hasDigest]⟩
  | @created d db₁ db' hd content reusable insert bind =>
    simp only [hcall.hasId, Option.bind_some, if_neg hcall.id_ne, hcall.hasDigest,
      Option.getD_some] at hd bind
    obtain ⟨rfl, -⟩ := insertJob_eq_some insert
    obtain ⟨hfree, rfl⟩ := insertMaterialization_eq_some bind
    have hqueue := hinv.insert (queuedRow args db.queue.nextKey d utc) rfl hd
      hcall.content fun k r hk hpath => reusableJob_none hinv hcall reusable hk hpath
    exact hqueue.bind hfree ⟨_, Table.insert_row_self (Table.row_nextKey _) _, rfl, hd⟩

/-! ## Every run -/

/-- What an action of the content queue does: a content call, or moves. -/
theorem content_step {s : Farm} (hfarm : s.Inv) (hinv : Materialized fileDigest s.db)
    {a : Action} (ha : a.byContent fileDigest) :
    QueueMoves s.db (s.step a).db ∨ ∃ args id digest utc reply,
      ContentCall fileDigest args id digest ∧
        EnsureEffect args fileDigest utc s.db reply (s.step a).db := by
  cases hf : a.fills with
  | false => exact Or.inl (hfarm.moves hf)
  | true =>
    right
    cases a with
    | enqueue => exact ha.elim
    | ensure args read utc =>
      obtain ⟨rfl, id, digest, hcall⟩ := ha
      exact ⟨args, id, digest, utc, _, hcall, ensureExperimentQueued_effect hinv hcall utc⟩
    | ensureRecovery args read utc =>
      obtain ⟨rfl, id, digest, hcall⟩ := ha
      rcases ensureRecovery_effect hinv hcall utc with h | h
      · exact ⟨args, id, digest, utc, _, hcall, h⟩
      · refine ⟨args, id, digest, utc, .error (.other ""), hcall, ?_⟩
        simp only [Farm.step, h]
        exact .raised (by simp)
    | _ => cases hf

theorem content_invariant {s : Farm} (hs : (contentQueue fileDigest).Reachable s) :
    s.Inv ∧ Materialized fileDigest s.db := by
  refine hs.invariant (P := fun s => s.Inv ∧ Materialized fileDigest s.db) ?_ ?_
  · rintro s ⟨hdb, hpending⟩
    refine ⟨⟨fun job => hdb ▸ jobInv_empty job, by simp [hpending]⟩, ?_⟩
    rw [hdb]
    exact ⟨by simp [QueueDb.empty], by simp [QueueDb.empty], by simp [QueueDb.empty],
      by simp [QueueDb.empty]⟩
  · rintro s a - ⟨hfarm, hinv⟩ ⟨-, ha⟩
    refine ⟨hfarm.step a, ?_⟩
    rcases content_step hfarm hinv ha with hm | ⟨args, id, digest, utc, reply, hcall, he⟩
    · exact hinv.moves hm
    · exact he.materialized hinv hcall

theorem ensure_of_bound (hinv : Materialized fileDigest db) {m : MaterializationRow}
    (hm : db.materializations.row id = some m) (hid : args.materializationId = some id)
    (utc : String) :
    (args.specPath = m.specPath → args.materializationDigest = some m.specDigest →
      ensureExperimentQueued args fileDigest utc db = (.ok (m.jobId, false), db)) ∧
    (args.specPath ≠ m.specPath ∨ args.materializationDigest.getD "" ≠ m.specDigest →
      ensureExperimentQueued args fileDigest utc db = (.error rebound, db)) := by
  obtain ⟨q, hq, hqd⟩ := hinv.bindingOf_eq hm
  constructor
  · intro hpath hdigest
    obtain ⟨row, hrow, hrpath, hrdigest⟩ := hinv.bound id m hm
    obtain ⟨d, hd, hfile⟩ := hinv.digest _ row hrow
    obtain rfl : m.specDigest = d := Option.some.inj (hrdigest.symm.trans hd)
    have hmatch : bindingMatches args (m, q) = true :=
      (bindingMatches_iff hdigest).2 ⟨hpath.symm, rfl, by simp [hqd]⟩
    have hcontent : assertCurrentContent args fileDigest = .ok () := by
      simp [assertCurrentContent, hid, hpath, ← hrpath, hfile, hdigest]
    simp [ensureExperimentQueued, ensureTransaction, hid, hq, hmatch, hcontent]
  · intro hne
    have hmatch : bindingMatches args (m, q) = false := by
      refine decide_eq_false ?_
      rintro ⟨hpath, hdigest, -⟩
      rcases hne with hne | hne
      · exact hne hpath.symm
      · exact hne hdigest.symm
    simp [ensureExperimentQueued, ensureTransaction, hid, hq, hmatch, rebound]

/-- Identical content is computed once, over every run of the content queue. -/
theorem content_is_queued_once {s : Farm} (hs : (contentQueue fileDigest).Reachable s) :
    (∀ j k row row', s.db.queue.row j = some row → s.db.queue.row k = some row' →
      row.specPath = row'.specPath → activeStatus row.status = true →
      activeStatus row'.status = true → j = k) ∧
    (∀ a, (contentQueue fileDigest).enabled s a → ∀ j row', s.db.queue.row j = none →
      (s.step a).db.queue.row j = some row' → ∀ k row, s.db.queue.row k = some row →
        row.specPath = row'.specPath → row.status = .failed) ∧
    (∀ args id digest utc, ContentCall fileDigest args id digest → ∀ j created db',
      ensureExperimentQueued args fileDigest utc s.db = (.ok (j, created), db') →
        ∃ m row, db'.materializations.row id = some m ∧ m.jobId = j ∧
          m.specPath = args.specPath ∧ m.specDigest = digest ∧ db'.queue.row j = some row ∧
          row.specPath = args.specPath ∧ row.materializationDigest = some digest) ∧
    (∀ id m, s.db.materializations.row id = some m →
      (∃ row, s.db.queue.row m.jobId = some row ∧ row.specPath = m.specPath ∧
        row.materializationDigest = some m.specDigest) ∧
      ∀ as t, (contentQueue fileDigest).Steps s as t →
        t.db.materializations.row id = some m ∧
        ∀ args utc, args.materializationId = some id →
          (args.specPath = m.specPath → args.materializationDigest = some m.specDigest →
            ensureExperimentQueued args fileDigest utc t.db = (.ok (m.jobId, false), t.db)) ∧
          (args.specPath ≠ m.specPath ∨ args.materializationDigest.getD "" ≠ m.specDigest →
            ensureExperimentQueued args fileDigest utc t.db = (.error rebound, t.db))) := by
  obtain ⟨hfarm, hinv⟩ := content_invariant hs
  refine ⟨hinv.active, ?_, ?_, ?_⟩
  · rintro a ⟨-, ha⟩ j row' hnone hrow' k row hk hpath
    rcases content_step hfarm hinv ha with hm | ⟨args, id, digest, utc, reply, hcall, he⟩
    · obtain ⟨row, hrow, -⟩ := hm.row_before hrow'
      simp [hnone] at hrow
    · exact (he.new_job hinv hcall hnone hrow').2 k row hk hpath
  · intro args id digest utc hcall j created db' hreply
    have he := ensureExperimentQueued_effect hinv hcall utc
    rw [hreply] at he
    exact (he.bound hinv hcall).2 j created rfl
  · refine fun id m hm => ⟨hinv.bound id m hm, fun as t hst => ?_⟩
    have hkept : t.db.materializations.row id = some m := by
      refine hst.preserves (P := fun t => t.db.materializations.row id = some m) ?_ hs hm
      rintro u a hu hum ⟨-, ha⟩
      obtain ⟨hufarm, huinv⟩ := content_invariant hu
      rcases content_step hufarm huinv ha with hmv | ⟨args, _, _, utc, reply, _, he⟩
      · exact hmv.bindings ▸ hum
      · exact he.binding_kept hum
    obtain ⟨-, htinv⟩ := content_invariant (hst.reachable hs)
    exact ⟨hkept, fun args utc hid => ensure_of_bound htinv hkept hid utc⟩

def specDigests : String → Option String
  | "sweep.yaml" => some "sha256:sweep"
  | _ => none

/-- The second id of a task that was claimed again, for the same spec file. -/
def aliasRun : List Action :=
  [.ensure ⟨"sweep.yaml", 100, some "task:4:fence:1", some "sha256:sweep"⟩ specDigests "t0",
    .ensure ⟨"sweep.yaml", 100, some "task:4:fence:2", some "sha256:sweep"⟩ specDigests "t1"]

theorem aliasRun_reachable : (contentQueue specDigests).Reachable
    ((contentQueue specDigests).run idleFarm aliasRun) :=
  Machine.reachable_run aliasRun ⟨rfl, fun _ => rfl⟩
    ⟨⟨trivial, rfl, _, _, rfl, by decide, rfl, rfl⟩,
      ⟨trivial, rfl, _, _, rfl, by decide, rfl, rfl⟩, trivial⟩

theorem content_is_queued_once_aliasRun :
    (ensureExperimentQueued ⟨"sweep.yaml", 100, some "task:4:fence:2", some "sha256:sweep"⟩
      specDigests "t2" ((contentQueue specDigests).run idleFarm aliasRun).db).1 =
        .ok (1, false) := by
  obtain ⟨-, -, -, hbound⟩ := content_is_queued_once aliasRun_reachable
  obtain ⟨-, hrun⟩ := hbound "task:4:fence:2" ⟨1, "sweep.yaml", "sha256:sweep", "t1"⟩ rfl
  obtain ⟨-, hcalls⟩ := hrun [] _ (.nil _)
  rw [(hcalls _ "t2" rfl).1 rfl rfl]

end ResearchLab.ComputeQueue
