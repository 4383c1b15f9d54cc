import Mathlib
import ResearchLab.FarmTasks.Runs

/-!
# The authority of a worker that lost its claim

`_set_state` compares the owner and the recorded fence with a row that is claimed. A row that
nobody claims any more passes without a look at the recorded fence, so a stale caller is
refused only where the row is still claimed or changes before the write.
-/
namespace ResearchLab.FarmTasks
open Foundation

/-- The store holds the task under the fence it recorded, and the claim has not expired. -/
def Live (tid : ℕ) (store : Store) (now : ℚ) (row : TaskRow) : Prop :=
  row.state = .running ∧ row.claimOwner = some store.ownerId ∧
    store.claims tid = some row.fencingToken ∧ ∃ e ∈ row.claimExpiresAt, now < e

/-- A call that read the database `db` and writes to `db'` raises `StaleTaskClaimError` and
leaves the task and its transitions as they are. -/
def Refused (tid : ℕ) (req : StateRequest) (now : Option ℚ) (observed observed' : ℚ)
    (store store' : Store) (db db' : TaskDb) : Prop :=
  (∃ m, (beginChange tid req now observed store db).1 = .raised (.stale m)) ∨
  ∃ p, (beginChange tid req now observed store db).1 = .waiting p ∧
    (∃ m, (resume p observed' store' db').1 = .raised (.stale m)) ∧
    (resume p observed' store' db').2.2 = db'

variable {P : Policy} {db : TaskDb} {tid : ℕ} {row r : TaskRow}

theorem beginChange_eq {req : StateRequest} (hreq : ∀ job, req ≠ .materialize job)
    (now : Option ℚ) (observed : ℚ) (store : Store) :
    (beginChange tid req now observed store db).1 =
      replyOf (fun row => .waiting (.change req tid row))
        (setStateCheck tid req.target now observed store db).1 := by
  cases req with
  | materialize job => exact absurd rfl (hreq job)
  | _ => rfl

/-- A claimed row refuses every store that does not hold it. -/
theorem setStateCheck_claimed (hr : RowInv row) (hrow : db.tasks.row tid = some row)
    (hclaimed : row.claimOwner ≠ none) {target : TaskState} {now : Option ℚ} {observed : ℚ}
    {store : Store} (hlive : ¬ Live tid store (effectiveNow store now observed) row) :
    (setStateCheck tid target now observed store db).1 =
      .error (.stale "stale claim for task") := by
  obtain ⟨owner, howner⟩ := Option.ne_none_iff_exists'.1 hclaimed
  have hrun : row.state = .running := hr.owner.1 (by simp [howner])
  obtain ⟨e, he⟩ := Option.isSome_iff_exists.1 (hr.expiry.2 hrun)
  simp only [setStateCheck, hrow, howner]
  split
  · rfl
  · next hcon =>
    simp only [not_or, not_not, not_le] at hcon
    obtain ⟨rfl, hfence, hlt⟩ := hcon
    exact absurd ⟨hrun, howner, hfence, e, he, by simpa [he] using hlt⟩ hlive

/-- An unclaimed row lets every store through. -/
theorem setStateCheck_unclaimed (hr : RowInv row) (hrow : db.tasks.row tid = some row)
    (hnone : row.claimOwner = none) {target : TaskState} (htarget : target ≠ .running)
    (now : Option ℚ) (observed : ℚ) (store : Store) :
    (setStateCheck tid target now observed store db).1 = .ok row := by
  have hrun : row.state ≠ .running := fun h => by simpa [hnone] using hr.owner.2 h
  simp [setStateCheck, hrow, hnone, hrun, htarget]

theorem setStateWrite_changed (hr : db.tasks.row tid = some r)
    (hseq : r.mutationSeq ≠ row.mutationSeq) (req : StateRequest) (observed : ℚ)
    (store : Store) :
    (setStateWrite req tid row observed store db).1 =
        .error (.stale "task changed during transition") ∧
      (setStateWrite req tid row observed store db).2.2 = db := by
  have hcas : ∀ now f, db.tasks.compareAndSet tid (unchangedSince row store.ownerId now) f =
      none := fun now f => Table.compareAndSet_eq_none.2 fun r' hr' => by
    obtain rfl : r = r' := Option.some.inj (hr.symm.trans hr')
    simp [unchangedSince, hseq]
  simp [setStateWrite, hcas]

/-- Without a claim to compare, an unchanged row is written, unless its key is taken. -/
theorem setStateWrite_unchanged (hinv : RowInv r) (hr : db.tasks.row tid = some r)
    (hseen : Seen row r) (hseq : r.mutationSeq = row.mutationSeq)
    (hnone : row.claimOwner = none) (req : StateRequest) (observed : ℚ) (store : Store) :
    (setStateWrite req tid row observed store db).1 =
      if req.target.active ∧ keyTaken db row.spec.taskKey (some tid) then .error .integrity
      else .ok () := by
  have hsame := hseen.same hseq
  have hcas : ∀ now f, db.tasks.compareAndSet tid (unchangedSince row store.ownerId now) f =
      some (db.tasks.modify tid f) := fun now f => Table.compareAndSet_eq_some.2
    ⟨r, hr, unchangedSince_iff.2 ⟨hsame.state, hsame.fencingToken, hinv.fenced, hseq,
      by simp [hnone, hsame.claimOwner]⟩, rfl⟩
  simp only [setStateWrite, Store.advance_ownerId, hcas]
  split <;> rfl

/-- A store that does not hold the task alive is refused exactly where the row it reads is
still claimed, or another write reaches the row before its own. -/
theorem stale_claim_refused_iff {s t : TaskFarm} {w : ℕ} {req : StateRequest}
    {now : Option ℚ} {observed observed' : ℚ} {as : List Action}
    (hs : (taskFarm P).Reachable s)
    (henabled : (taskFarm P).enabled s (.change w tid req now observed))
    (hreq : ∀ job, req ≠ .materialize job)
    (hrow : s.db.tasks.row tid = some row)
    (hlost : ¬ Live tid (s.stores w) (effectiveNow (s.stores w) now observed) row)
    (hrun : (taskFarm P).Steps (s.step (.change w tid req now observed)) as t)
    (hwait : ∀ p, (beginChange tid req now observed (s.stores w) s.db).1 = .waiting p →
      t.pending w = some p) :
    Refused tid req now observed observed' (s.stores w) (t.stores w) s.db t.db ↔
      row.claimOwner ≠ none ∨
        ∃ row', t.db.tasks.row tid = some row' ∧ row'.mutationSeq ≠ row.mutationSeq := by
  have hinv := inv_of_reachable hs
  have htinv := inv_of_reachable (hrun.reachable (.step hs henabled))
  have hr := hinv.db.rows tid row hrow
  rw [Refused, beginChange_eq hreq] at *
  by_cases hclaimed : row.claimOwner = none
  · have hcheck := setStateCheck_unclaimed hr hrow hclaimed req.target_ne_running now observed
      (s.stores w)
    rw [hcheck] at hwait ⊢
    simp only [replyOf, reduceCtorEq, exists_const, false_or, Reply.waiting.injEq,
      exists_eq_left', hclaimed, ne_eq, not_true_eq_false]
    obtain ⟨r, hrt, hseen⟩ := htinv.seen w req tid row (hwait _ rfl)
    by_cases hseq : r.mutationSeq = row.mutationSeq
    · have hwrite := setStateWrite_unchanged (htinv.db.rows tid r hrt) hrt hseen hseq hclaimed
        req observed' (t.stores w)
      constructor
      · rintro ⟨⟨m, hm⟩, -⟩
        simp only [resume, hwrite] at hm
        split at hm <;> simp [replyOf] at hm
      · rintro ⟨row', hrow', hne⟩
        obtain rfl := Option.some.inj (hrt.symm.trans hrow')
        exact absurd hseq hne
    · obtain ⟨hreply, hdb⟩ := setStateWrite_changed hrt hseq req observed' (t.stores w)
      exact ⟨fun _ => ⟨r, hrt, hseq⟩, fun _ =>
        ⟨⟨"task changed during transition", by simp [resume, hreply, replyOf]⟩, hdb⟩⟩
  · have hcheck : (setStateCheck tid req.target now observed (s.stores w) s.db).1 =
        .error (.stale "stale claim for task") := setStateCheck_claimed hr hrow hclaimed hlost
    exact ⟨fun _ => Or.inl hclaimed, fun _ => Or.inl ⟨_, by rw [hcheck]; rfl⟩⟩

/-! ## A worker that completes a task after it was reaped -/

/-- Every call, on tasks created waiting. -/
def openPolicy : Policy where
  creates args := args.state = .queued ∨ args.state = .deferred ∨ args.state = .blocked
  intends _ _ _ := True
  changes _ _ := True
  finishes _ _ := True
  waits _ h := h

/-- Two workers on an empty brain, both with a lease of five seconds. -/
def twoWorkers : TaskFarm where
  db := .empty
  stores := fun w => .open (if w = 0 then "owner-a" else "owner-b") 5 100
  pending := fun _ => none

def sweepTask : EnqueueArgs :=
  ⟨{ taskKey := "sweep", taskType := "run_sweep" }, 100, none, .queued, "", none, 43200⟩

/-- The claim of worker 0 expires at 105, and worker 1 reaps it at 106. -/
def reapedRun : List Action :=
  [.enqueue sweepTask 100, .claim 0 { now := some 100 } ⟨100, 100⟩,
    .reconcile 1 "orphan_running_requeued" (some 106) ⟨106, 106⟩]

def reapedFarm : TaskFarm := (taskFarm openPolicy).run twoWorkers reapedRun

theorem reapedFarm_reachable : (taskFarm openPolicy).Reachable reapedFarm :=
  Machine.reachable_run reapedRun ⟨rfl, fun _ => rfl⟩
    ⟨⟨by simp [Action.caller], Or.inl rfl⟩, ⟨by simp [Action.caller]; rfl, trivial⟩,
      ⟨by simp [Action.caller]; rfl, trivial⟩, trivial⟩

theorem reapedFarm_row : ∃ row, reapedFarm.db.tasks.row 1 = some row ∧
    row.claimOwner = none ∧ row.state = .queued := by
  have hclaim : (reapedFarm.db.tasks.row 1).map TaskRow.claimOwner = some none := by
    decide +kernel
  have hstate : (reapedFarm.db.tasks.row 1).map TaskRow.state = some .queued := by
    decide +kernel
  cases h : reapedFarm.db.tasks.row 1 with
  | none => simp [h] at hclaim
  | some row => exact ⟨row, rfl, by simpa [h] using hclaim, by simpa [h] using hstate⟩

def lateCompletion : StateRequest := .complete none none none ""

theorem lateCompletion_enabled :
    (taskFarm openPolicy).enabled reapedFarm (.change 0 1 lateCompletion none 106) :=
  ⟨by simp [Action.caller]; rfl, trivial⟩

theorem lateCompletion_reads {row : TaskRow} (hrow : reapedFarm.db.tasks.row 1 = some row)
    (hnone : row.claimOwner = none) :
    (beginChange 1 lateCompletion none 106 (reapedFarm.stores 0) reapedFarm.db).1 =
      .waiting (.change lateCompletion 1 row) := by
  rw [beginChange_eq (by simp [lateCompletion]), setStateCheck_unclaimed
    ((inv_of_reachable reapedFarm_reachable).db.rows 1 row hrow) hrow hnone
    lateCompletion.target_ne_running]
  rfl

/-- Worker 0 still records fence 1, is told nothing, and completes the reaped task. -/
theorem lost_claim_still_completes :
    ¬ ∀ (s t : TaskFarm) (w tid f : ℕ) (req : StateRequest) (now : Option ℚ)
      (observed observed' : ℚ) (row : TaskRow) (as : List Action),
      (taskFarm openPolicy).Reachable s →
      (taskFarm openPolicy).enabled s (.change w tid req now observed) →
      (∀ job, req ≠ .materialize job) → (s.stores w).claims tid = some f →
      s.db.tasks.row tid = some row →
      ¬ Live tid (s.stores w) (effectiveNow (s.stores w) now observed) row →
      (taskFarm openPolicy).Steps (s.step (.change w tid req now observed)) as t →
      (∀ p, (beginChange tid req now observed (s.stores w) s.db).1 = .waiting p →
        t.pending w = some p) →
      Refused tid req now observed observed' (s.stores w) (t.stores w) s.db t.db := by
  intro h
  obtain ⟨row, hrow, hnone, hstate⟩ := reapedFarm_row
  have hinv := (inv_of_reachable reapedFarm_reachable).db
  have hfence : (reapedFarm.stores 0).claims 1 = some 1 := by decide +kernel
  have hread := lateCompletion_reads hrow hnone
  have hrefused := h reapedFarm _ 0 1 1 lateCompletion none 106 106 row []
    reapedFarm_reachable lateCompletion_enabled (by simp [lateCompletion]) hfence hrow
    (by simp [Live, hstate]) (.nil _) (fun p hp => by
      simp [TaskFarm.step, TaskFarm.answer, hp, Reply.pending])
  simp only [Refused, hread, reduceCtorEq, exists_const, false_or, Reply.waiting.injEq,
    exists_eq_left'] at hrefused
  obtain ⟨⟨m, hm⟩, -⟩ := hrefused
  have hseen : Seen row row := ⟨rfl, le_rfl, fun _ => ⟨rfl, rfl, rfl, rfl⟩, by simp [hstate]⟩
  have hwrite := setStateWrite_unchanged (hinv.rows 1 row hrow) hrow hseen rfl hnone
    lateCompletion 106
  have hactive : lateCompletion.target.active = false := rfl
  simp only [resume, TaskFarm.step, TaskFarm.answer, hwrite, hactive] at hm
  simp [replyOf] at hm

/-- Had worker 1 claimed the reaped task before the write, worker 0 would have been refused. -/
theorem stale_claim_refused_iff_retaken : ∃ (row : TaskRow) (t : TaskFarm),
    reapedFarm.db.tasks.row 1 = some row ∧ row.claimOwner = none ∧
    Refused 1 lateCompletion none 106 107 (reapedFarm.stores 0) (t.stores 0)
      reapedFarm.db t.db := by
  obtain ⟨row, hrow, hnone, hstate⟩ := reapedFarm_row
  have hread := lateCompletion_reads hrow hnone
  let begun := reapedFarm.step (.change 0 1 lateCompletion none 106)
  let claim : Action := .claim 1 { now := some 106 } ⟨106, 106⟩
  have hidle : (taskFarm openPolicy).enabled begun claim := by
    refine ⟨fun w hw => ?_, trivial⟩
    obtain rfl : 1 = w := by simpa [claim, Action.caller] using hw
    rfl
  have hseq : (reapedFarm.db.tasks.row 1).map TaskRow.mutationSeq = some 2 := by
    decide +kernel
  have hseq' : ((begun.step claim).db.tasks.row 1).map TaskRow.mutationSeq = some 3 := by
    decide +kernel
  have hmoved : ∃ row', (begun.step claim).db.tasks.row 1 = some row' ∧
      row'.mutationSeq ≠ row.mutationSeq := by
    cases hrow' : (begun.step claim).db.tasks.row 1 with
    | none => simp [hrow'] at hseq'
    | some row' =>
      simp only [hrow', hrow, Option.map_some, Option.some.injEq] at hseq hseq'
      exact ⟨row', rfl, by omega⟩
  refine ⟨row, begun.step claim, hrow, hnone, ?_⟩
  refine (stale_claim_refused_iff reapedFarm_reachable lateCompletion_enabled
    (by simp [lateCompletion]) hrow (by simp [Live, hstate]) (.cons hidle (.nil _))
    fun p hp => ?_).2 (Or.inr hmoved)
  obtain rfl : _ = p := Reply.waiting.inj (hread.symm.trans hp)
  change (begun.step claim).pending 0 = _
  simp [begun, claim, TaskFarm.step, TaskFarm.answer, TaskFarm.setStore, hread, Reply.pending]

end ResearchLab.FarmTasks
