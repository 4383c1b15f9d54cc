import Mathlib
import ResearchLab.Foundation.Machine
import ResearchLab.ComputeQueue.Queue

/-!
# What a call can do to one job

`JobView` is everything the tables say about one job: its queue row, its attempts by fence
and how many there are. `JobStep` lists the changes of a view, and every call is a chain of
them for every job.
-/
namespace ResearchLab.ComputeQueue
open Foundation

structure JobView where
  row : Option JobRow
  attempt : ℕ → Option AttemptRow
  count : ℕ

/-- The number of `job_attempts` rows of a job. -/
def attemptCount (db : QueueDb) (job : ℕ) : ℕ :=
  (db.attempts.keys.filter fun k => k.1 = job).length

def QueueDb.view (db : QueueDb) (job : ℕ) : JobView :=
  ⟨db.queue.row job, fun k => db.attempts.row (job, k), attemptCount db job⟩

/-- What stays with a queue row for ever. -/
structure SameContent (row row' : JobRow) : Prop where
  jobId : row'.jobId = row.jobId
  specPath : row'.specPath = row.specPath
  digest : row'.materializationDigest = row.materializationDigest

/-- A queue row as `INSERT` makes it. -/
structure Inserted (row : JobRow) : Prop where
  status : row.status = .queued
  unclaimed : row.claimOwner = none
  noExpiry : row.claimExpiresAt = none
  attempts : row.attempts = 0
  fence : row.fencingToken = 0
  fenced : row.mutationProtocol = "fenced.v2"

/-- A running row that left its claim for the status `status`. -/
structure Unclaimed (row row' : JobRow) (status : JobStatus) : Prop where
  status : row'.status = status
  unclaimed : row'.claimOwner = none
  noExpiry : row'.claimExpiresAt = none
  attempts : row'.attempts = row.attempts
  fence : row'.fencingToken = row.fencingToken
  fenced : row'.mutationProtocol = "fenced.v2"
  content : SameContent row row'

def AttemptState.terminal (state : AttemptState) : Bool := !openAttempt state

def updateAttempt (f : AttemptRow → AttemptRow) (fence : ℕ)
    (attempt : ℕ → Option AttemptRow) : ℕ → Option AttemptRow :=
  fun k => if k = fence then (attempt k).map f else attempt k

/-- The changes of a job that is there already. -/
inductive JobMove : JobView → JobView → Prop
  | claimed {v : JobView} {row : JobRow} {a : AttemptRow} {owner utc : String}
      {expires : ℚ} (present : v.row = some row) (queued : row.status = .queued)
      (fresh : v.attempt (row.fencingToken + 1) = none) (state : a.state = .claimed)
      (owned : a.ownerId = owner) :
      JobMove v ⟨some (claimedRow owner utc expires row),
        Function.update v.attempt (row.fencingToken + 1) (some a), v.count + 1⟩
  | executing {v : JobView} {row : JobRow} {f : AttemptRow → AttemptRow}
      (present : v.row = some row) (running : row.status = .running)
      (keeps : ∀ a, openAttempt (f a).state = true ∧ (f a).ownerId = a.ownerId) :
      JobMove v ⟨some row, updateAttempt f row.fencingToken v.attempt, v.count⟩
  | renewed {v : JobView} {row row' : JobRow} (present : v.row = some row)
      (running : row.status = .running) (expires : row'.claimExpiresAt ≠ none)
      (same : row' = { row with
        claimExpiresAt := row'.claimExpiresAt, mutationProtocol := "fenced.v2",
        mutationSeq := row.mutationSeq + 1 }) :
      JobMove v ⟨some row', v.attempt, v.count⟩
  | closed {v : JobView} {row row' : JobRow} {status : JobStatus}
      {f : AttemptRow → AttemptRow} (present : v.row = some row)
      (running : row.status = .running) (ne : status ≠ .running)
      (left : Unclaimed row row' status)
      (closes : ∀ a, v.attempt row.fencingToken = some a → openAttempt a.state = true →
        (f a).state.terminal = true) :
      JobMove v ⟨some row', updateAttempt f row.fencingToken v.attempt, v.count⟩

/-- A job appears, or moves. -/
inductive JobStep : JobView → JobView → Prop
  | inserted {v : JobView} {row : JobRow} (absent : v.row = none) (new : Inserted row) :
      JobStep v ⟨some row, v.attempt, v.count⟩
  | moved {v w : JobView} (move : JobMove v w) : JobStep v w

/-! ## The invariant of one job -/

structure RowInv (v : JobView) (row : JobRow) : Prop where
  fenced : row.mutationProtocol = "fenced.v2"
  attempts : row.attempts = row.fencingToken
  count : v.count = row.fencingToken
  owner : row.claimOwner.isSome = true ↔ row.status = .running
  expiry : row.claimExpiresAt.isSome = true ↔ row.status = .running
  domain : ∀ k, (v.attempt k).isSome = true ↔ 1 ≤ k ∧ k ≤ row.fencingToken
  current : row.status = .running →
    ∃ a, v.attempt row.fencingToken = some a ∧ openAttempt a.state = true ∧
      row.claimOwner = some a.ownerId
  others : ∀ k a, v.attempt k = some a → (row.status = .running → k ≠ row.fencingToken) →
    a.state.terminal = true

structure JobInv (v : JobView) : Prop where
  absent : v.row = none → v.count = 0 ∧ ∀ k, v.attempt k = none
  present : ∀ row, v.row = some row → RowInv v row

theorem updateAttempt_self {f : AttemptRow → AttemptRow} {fence : ℕ}
    {attempt : ℕ → Option AttemptRow} :
    updateAttempt f fence attempt fence = (attempt fence).map f := by simp [updateAttempt]

theorem updateAttempt_of_ne {f : AttemptRow → AttemptRow} {fence k : ℕ}
    {attempt : ℕ → Option AttemptRow} (h : k ≠ fence) :
    updateAttempt f fence attempt k = attempt k := by simp [updateAttempt, h]

theorem updateAttempt_isSome {f : AttemptRow → AttemptRow} {fence k : ℕ}
    {attempt : ℕ → Option AttemptRow} :
    (updateAttempt f fence attempt k).isSome = (attempt k).isSome := by
  by_cases h : k = fence <;> simp [updateAttempt, h]

/-- The step lemma of the fencing protocol. -/
theorem JobInv.move {v w : JobView} (h : JobInv v) (hm : JobMove v w) : JobInv w := by
  refine ⟨fun hw => ?_, fun row' hw => ?_⟩
  · cases hm <;> simp at hw
  cases hm with
  | @claimed row a owner utc expires present queued fresh state owned =>
    obtain rfl := Option.some.inj hw
    have hr := h.present row present
    exact {
      fenced := rfl
      attempts := by simp [claimedRow, hr.attempts]
      count := by simp [claimedRow, hr.count]
      owner := by simp [claimedRow]
      expiry := by simp [claimedRow]
      domain := by
        intro k
        by_cases hk : k = row.fencingToken + 1
        · subst hk
          simp [claimedRow]
        · simp only [Function.update_of_ne hk, hr.domain, claimedRow]
          omega
      current := fun _ => ⟨a, by simp [claimedRow], by simp [openAttempt, state],
        by simp [claimedRow, owned]⟩
      others := by
        intro k b hb hne
        have hk : k ≠ row.fencingToken + 1 := hne rfl
        simp only [Function.update_of_ne hk] at hb
        exact hr.others k b hb (by simp [queued]) }
  | @executing row f present running keeps =>
    obtain rfl := Option.some.inj hw
    have hr := h.present row present
    obtain ⟨a, ha, _, hown⟩ := hr.current running
    exact {
      fenced := hr.fenced
      attempts := hr.attempts
      count := hr.count
      owner := hr.owner
      expiry := hr.expiry
      domain := by simpa [updateAttempt_isSome] using hr.domain
      current := fun _ => ⟨f a, by simp [updateAttempt_self, ha], (keeps a).1,
        hown.trans (congrArg some (keeps a).2.symm)⟩
      others := by
        intro k b hb hne
        have hk := hne running
        simp only [updateAttempt_of_ne hk] at hb
        exact hr.others k b hb hne }
  | @renewed row row'' present running expires same =>
    obtain rfl := Option.some.inj hw
    have hr := h.present row present
    have hstatus : row''.status = row.status := by rw [same]
    have hfence : row''.fencingToken = row.fencingToken := by rw [same]
    have hattempts : row''.attempts = row.attempts := by rw [same]
    have howner : row''.claimOwner = row.claimOwner := by rw [same]
    exact {
      fenced := by rw [same]
      attempts := by rw [hattempts, hfence, hr.attempts]
      count := hr.count.trans hfence.symm
      owner := by rw [howner, hstatus]; exact hr.owner
      expiry := by
        rw [hstatus]
        simp [running, Option.isSome_iff_ne_none, expires]
      domain := by rw [hfence]; exact hr.domain
      current := by rw [hstatus, hfence, howner]; exact hr.current
      others := by rw [hstatus, hfence]; exact hr.others }
  | @closed row row'' status f present running ne left closes =>
    obtain rfl := Option.some.inj hw
    have hr := h.present row present
    exact {
      fenced := left.fenced
      attempts := by rw [left.attempts, left.fence, hr.attempts]
      count := hr.count.trans left.fence.symm
      owner := by simp [left.unclaimed, left.status, ne]
      expiry := by simp [left.noExpiry, left.status, ne]
      domain := by simpa [updateAttempt_isSome, left.fence] using hr.domain
      current := by simp [left.status, ne]
      others := by
        intro k b hb _
        by_cases hk : k = row.fencingToken
        · subst hk
          obtain ⟨a, ha, hopen, -⟩ := hr.current running
          simp only [updateAttempt_self, ha, Option.map_some, Option.some.injEq] at hb
          subst hb
          exact closes a ha hopen
        · simp only [updateAttempt_of_ne hk] at hb
          exact hr.others k b hb fun _ => hk }

theorem JobInv.insert {v : JobView} (h : JobInv v) {row : JobRow} (absent : v.row = none)
    (new : Inserted row) : JobInv ⟨some row, v.attempt, v.count⟩ := by
  refine ⟨fun hw => by simp at hw, fun row' hw => ?_⟩
  obtain rfl := Option.some.inj hw
  obtain ⟨hcount, hattempt⟩ := h.absent absent
  have hfence := new.fence
  exact {
    fenced := new.fenced
    attempts := by rw [new.attempts, new.fence]
    count := by simp [hcount, hfence]
    owner := by simp [new.unclaimed, new.status]
    expiry := by simp [new.noExpiry, new.status]
    domain := by
      intro k
      simp only [hattempt, hfence, Option.isSome_none]
      constructor
      · simp
      · omega
    current := by simp [new.status]
    others := by simp [hattempt] }

theorem JobInv.step {v w : JobView} (h : JobInv v) (hs : JobStep v w) : JobInv w := by
  cases hs with
  | inserted absent new => exact h.insert absent new
  | moved move => exact h.move move

def JobStatus.terminal (status : JobStatus) : Bool :=
  decide (status = .completed ∨ status = .failed)

/-- No step leads out of a terminal status. -/
theorem JobMove.not_terminal {v w : JobView} {row : JobRow} (hm : JobMove v w)
    (hv : v.row = some row) : row.status.terminal = false := by
  cases hm with
  | claimed present queued =>
    obtain rfl := Option.some.inj (hv.symm.trans present)
    simp [JobStatus.terminal, queued]
  | executing present running =>
    obtain rfl := Option.some.inj (hv.symm.trans present)
    simp [JobStatus.terminal, running]
  | renewed present running =>
    obtain rfl := Option.some.inj (hv.symm.trans present)
    simp [JobStatus.terminal, running]
  | closed present running =>
    obtain rfl := Option.some.inj (hv.symm.trans present)
    simp [JobStatus.terminal, running]

/-- A row keeps its spec path and digest for ever. -/
theorem JobMove.content {v w : JobView} (hm : JobMove v w) :
    ∃ row row', v.row = some row ∧ w.row = some row' ∧ SameContent row row' := by
  cases hm with
  | claimed present => exact ⟨_, _, present, rfl, rfl, rfl, rfl⟩
  | executing present => exact ⟨_, _, present, rfl, rfl, rfl, rfl⟩
  | renewed present _ _ same =>
    exact ⟨_, _, present, rfl, by rw [same], by rw [same], by rw [same]⟩
  | closed present _ _ left => exact ⟨_, _, present, rfl, left.content⟩

/-- Chains of changes of one view. -/
abbrev JobMoves : JobView → JobView → Prop := Relation.ReflTransGen JobMove

abbrev JobSteps : JobView → JobView → Prop := Relation.ReflTransGen JobStep

theorem JobMoves.steps {v w : JobView} (h : JobMoves v w) : JobSteps v w :=
  Relation.ReflTransGen.mono (fun _ _ => JobStep.moved) _ _ h

theorem JobInv.steps {v w : JobView} (h : JobInv v) (hs : JobSteps v w) : JobInv w := by
  induction hs with
  | refl => exact h
  | tail _ hstep ih => exact ih.step hstep

theorem JobSteps.terminal {v w : JobView} {row : JobRow} (hs : JobSteps v w)
    (hv : v.row = some row) (ht : row.status.terminal = true) : w = v := by
  rcases hs.cases_head with rfl | ⟨_, hstep, _⟩
  · rfl
  · cases hstep with
    | inserted absent => simp [absent] at hv
    | moved move => simp [move.not_terminal hv] at ht

theorem JobMoves.absent {v w : JobView} (hs : JobMoves v w) (hv : v.row = none) : w = v := by
  rcases hs.cases_head with rfl | ⟨_, hmove, _⟩
  · rfl
  · obtain ⟨row, -, hrow, -⟩ := hmove.content
    simp [hrow] at hv

theorem JobMoves.content {v w : JobView} {row : JobRow} (hs : JobMoves v w)
    (hv : v.row = some row) : ∃ row', w.row = some row' ∧ SameContent row row' := by
  induction hs with
  | refl => exact ⟨row, hv, rfl, rfl, rfl⟩
  | tail _ hmove ih =>
    obtain ⟨row₁, h₁, c₁⟩ := ih
    obtain ⟨row₂, row₃, h₂, h₃, c₂⟩ := hmove.content
    obtain rfl := Option.some.inj (h₁.symm.trans h₂)
    exact ⟨row₃, h₃, c₂.jobId.trans c₁.jobId, c₂.specPath.trans c₁.specPath,
      c₂.digest.trans c₁.digest⟩

end ResearchLab.ComputeQueue
