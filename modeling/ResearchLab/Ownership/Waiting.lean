import Mathlib
import ResearchLab.Foundation.Machine
import ResearchLab.Ownership.Fencing

/-!
# Calls that wait for the write lock

`_renew`, `_release` and `acquire` read the clock, and only then wait for the lock of
`BEGIN IMMEDIATE`. While a call waits the clock advances and other processes take their turns; the
transaction compares and writes the time that it read before.
-/
namespace ResearchLab.Ownership
open Foundation

/-- The lease that a holder presents, with the seconds that a renewal asks for. -/
def Call.renewal : Call → Option (ProcessLease × ℚ)
  | .renew l secs | .renewLocal l secs | .renewSupervised l secs => some (l, secs)
  | .acquire _ | .release _ | .releaseLocal _ => none

def Call.presented : Call → Option ProcessLease
  | .renew l _ | .renewLocal l _ | .renewSupervised l _ | .release l | .releaseLocal l => some l
  | .acquire _ => none

/-- The `lease_seconds` of a call. -/
def Call.leaseSeconds : Call → ℚ
  | .acquire args => args.leaseSeconds
  | .renew _ secs | .renewLocal _ secs | .renewSupervised _ secs => secs
  | .release _ | .releaseLocal _ => 0

/-- What a call returns: a lease, nothing, or its error. -/
def answer (call : Call) (env : Environment) (db : Resources) :
    Except OwnershipError (Option ProcessLease) :=
  match call with
  | .acquire args => (acquire args env db).1.map some
  | .renew l secs => (renew l secs env db).1.map some
  | .renewLocal l secs => (renewLocal l secs env db).1.map some
  | .renewSupervised l secs => (renewSupervised l secs env db).1.map some
  | .release l => (release l env db).1.map fun _ => none
  | .releaseLocal l => (releaseLocal l env db).1.map fun _ => none

/-! ## Processes at one lock -/

/-- A call that has read the clock and waits for the lock. -/
structure WaitingCall where
  call : Call
  sampled : ℚ

/-- A call that got the lock: the time that it had read, the time on the clock when it got the
lock, its answer, and the rows before and after it. -/
structure Attempt where
  call : Call
  sampled : ℚ
  locked : ℚ
  answer : Except OwnershipError (Option ProcessLease)
  before : Resources
  after : Resources

/-- The store with its clock, the calls that wait, and those that had the lock, latest first. -/
structure LockedStore where
  resources : Resources
  clock : ℚ
  waiting : ℕ → Option WaitingCall
  attempts : List Attempt

inductive LockEvent
  | tick (now : ℚ)
  | sample (process : ℕ) (call : Call)
  | lock (process : ℕ) (env : Environment)
  | timeout (process : ℕ)

/-- The transaction of a call runs with the time that the call has read. -/
def attempt (s : LockedStore) (w : WaitingCall) (env : Environment) : Attempt where
  call := w.call
  sampled := w.sampled
  locked := s.clock
  answer := answer w.call { env with now := w.sampled } s.resources
  before := s.resources
  after := (perform w.call { env with now := w.sampled } s.resources).2

def LockedStore.step (s : LockedStore) : LockEvent → LockedStore
  | .tick now => { s with clock := now }
  | .sample process call =>
      { s with waiting := Function.update s.waiting process (some ⟨call, s.clock⟩) }
  | .lock process env =>
      match s.waiting process with
      | none => s
      | some w =>
          { s with
            resources := (attempt s w env).after
            waiting := Function.update s.waiting process none
            attempts := attempt s w env :: s.attempts }
  | .timeout process => { s with waiting := Function.update s.waiting process none }

def LockedStore.Enabled (s : LockedStore) : LockEvent → Prop
  | .tick now => s.clock ≤ now
  | .sample process _ => s.waiting process = none
  | .lock _ _ | .timeout _ => True

/-- Any number of processes whose calls wait any time for the lock. -/
def lockedStore : Machine LockedStore LockEvent where
  init s := s.resources = Table.empty ∧ s.waiting = (fun _ => none) ∧ s.attempts = []
  enabled := LockedStore.Enabled
  step := LockedStore.step

/-! ## What a call that gets the lock does -/

/-- A call is refused and changes nothing, or acquires, renews or releases. -/
inductive Outcome (call : Call) (env : Environment) (db : Resources)
    (ans : Except OwnershipError (Option ProcessLease)) (db' : Resources) : Prop
  | refused (e : OwnershipError) (error : ans = .error e) (same : db' = db)
  | acquired (args : AcquireArgs) (fence : ℤ) (acquires : call = .acquire args)
      (lease : ans = .ok (some (leaseOf args env fence)))
      (rows : ∀ k, db'.row k = if k = args.resourceId then some (ownedRow args env fence)
        else db.row k)
  | renewed (lease : ProcessLease) (secs : ℚ) (row : ResourceRow)
      (renewal : call.renewal = some (lease, secs))
      (ok : ans = .ok (some { lease with leaseExpiresAt := env.now + secs }))
      (held : db.row lease.resourceId = some row) (holds : Holds lease row)
      (live : env.now < row.leaseExpiresAt.getD 0)
      (rows : ∀ k, db'.row k = if k = lease.resourceId then
        some { row with leaseExpiresAt := some (env.now + secs), updatedAt := env.now }
        else db.row k)
  | released (lease : ProcessLease) (row : ResourceRow) (releases : call.renewal = none)
      (presented : call.presented = some lease) (ok : ans = .ok none)
      (held : db.row lease.resourceId = some row) (holds : Holds lease row)
      (live : env.now < row.leaseExpiresAt.getD 0)
      (rows : ∀ k, db'.row k = if k = lease.resourceId then some (releasedRow env row)
        else db.row k)

/-- A lease that passes the authority check has not run out at the time that is compared. -/
theorem assertAuthoritative_live {lease : ProcessLease} {env : Environment} {b : Bool}
    {db : Resources} {row : ResourceRow} (h : assertAuthoritative lease env b db = .ok row) :
    env.now < row.leaseExpiresAt.getD 0 := by
  have hrow := (assertAuthoritative_holds h).1
  unfold assertAuthoritative at h
  rw [hrow] at h
  dsimp only at h
  split at h
  · cases h
  split at h
  · cases h
  split at h
  · cases h
  next hc =>
    simp only [not_or, not_not, not_le] at hc
    exact hc.2.2.2.2

section Outcomes

variable {call : Call} {lease : ProcessLease}

theorem renewCore_outcome {secs : ℚ} (hrenewal : call.renewal = some (lease, secs)) (b c₁ c₂ : Bool)
    (env : Environment) (db : Resources) :
    Outcome call env db ((renewCore lease secs b c₁ c₂ env db).1.map some)
      (renewCore lease secs b c₁ c₂ env db).2 := by
  unfold renewCore
  split
  · exact .refused _ rfl rfl
  split
  · exact .refused _ rfl rfl
  split
  · exact .refused _ rfl rfl
  next row hrow =>
  split
  · exact .refused _ rfl rfl
  · obtain ⟨hheld, hholds⟩ := assertAuthoritative_holds hrow
    exact .renewed lease secs row hrenewal rfl hheld hholds (assertAuthoritative_live hrow)
      (updateHeld_row hheld hholds _)

theorem releaseCore_outcome (hreleases : call.renewal = none)
    (hpresented : call.presented = some lease) (b : Bool) (env : Environment) (db : Resources) :
    Outcome call env db ((releaseCore lease b env db).1.map fun _ => none)
      (releaseCore lease b env db).2 := by
  unfold releaseCore
  split
  · exact .refused _ rfl rfl
  next row hrow =>
    obtain ⟨hheld, hholds⟩ := assertAuthoritative_holds hrow
    exact .released lease row hreleases hpresented rfl hheld hholds (assertAuthoritative_live hrow)
      (updateHeld_row hheld hholds _)

end Outcomes

theorem outcome (call : Call) (env : Environment) (db : Resources) :
    Outcome call env db (answer call env db) (perform call env db).2 := by
  cases call with
  | acquire args =>
    rcases acquire_cases args env db with ⟨e, h⟩ | ⟨fence, db', h, -, -, -, hrows⟩
    · simp only [answer, perform, h]
      exact .refused e rfl rfl
    · simp only [answer, perform, h]
      exact .acquired args fence rfl rfl hrows
  | renew l secs => exact renewCore_outcome rfl true false false env db
  | renewLocal l secs =>
    simp only [answer, perform, renewLocal]
    split
    · exact .refused _ rfl rfl
    · exact renewCore_outcome rfl false _ _ env db
  | renewSupervised l secs =>
    simp only [answer, perform, renewSupervised]
    split_ifs
    · exact .refused _ rfl rfl
    split
    · exact .refused _ rfl rfl
    · split_ifs
      · exact renewCore_outcome rfl false _ _ env db
      · exact .refused _ rfl rfl
  | release l => exact releaseCore_outcome rfl rfl true env db
  | releaseLocal l =>
    simp only [answer, perform, releaseLocal]
    split
    · exact .refused _ rfl rfl
    · exact releaseCore_outcome rfl rfl false env db

theorem presented_of_renewal {call : Call} {lease : ProcessLease} {secs : ℚ}
    (h : call.renewal = some (lease, secs)) :
    call.presented = some lease ∧ call.leaseSeconds = secs := by
  cases call <;> cases h <;> exact ⟨rfl, rfl⟩

/-! ## Where an expiry comes from -/

/-- The attempt got a lease of the resource with the fence. -/
def Attempt.Granted (a : Attempt) (resource : String) (fence : ℤ) : Prop :=
  ∃ l ∈ a.answer.toOption.join, l.resourceId = resource ∧ l.fencingToken = fence

/-- The expiry of the row was written by the attempt. -/
structure Attempt.Dates (a : Attempt) (resource : String) (row : ResourceRow) : Prop where
  granted : a.Granted resource row.nextFence
  renews : a.call.isAcquire = false → ∃ l, a.call.renewal = some (l, a.call.leaseSeconds)
  expires : row.leaseExpiresAt = some (a.sampled + a.call.leaseSeconds)

/-- Every lease that is held runs for the `lease_seconds` of some call from the time that this call
had read. -/
def LockedStore.Dated (s : LockedStore) : Prop :=
  ∀ r row, s.resources.row r = some row → row.ownerId ≠ none → ∃ a ∈ s.attempts, a.Dates r row

variable {s : LockedStore}

/-- The step lemma: what an attempt writes is dated by itself. -/
theorem LockedStore.Dated.lock (h : s.Dated) (w : WaitingCall) (env : Environment)
    (waiting : ℕ → Option WaitingCall) :
    LockedStore.Dated
      ⟨(attempt s w env).after, s.clock, waiting, attempt s w env :: s.attempts⟩ := by
  intro r row hrow hown
  have hkept : s.resources.row r = some row →
      ∃ a ∈ attempt s w env :: s.attempts, a.Dates r row := by
    intro hrow
    obtain ⟨a, ha, hdates⟩ := h r row hrow hown
    exact ⟨a, List.mem_cons_of_mem _ ha, hdates⟩
  have hgranted : ∀ {l}, answer w.call { env with now := w.sampled } s.resources = .ok (some l) →
      l ∈ (attempt s w env).answer.toOption.join := fun h =>
    congrArg (fun ans : Except OwnershipError (Option ProcessLease) => ans.toOption.join) h
  rcases outcome w.call { env with now := w.sampled } s.resources with
    ⟨e, -, hsame⟩ | ⟨args, fence, hcall, hlease, hrows⟩ |
    ⟨lease, secs, row', hrenewal, hlease, -, hholds, -, hrows⟩ |
    ⟨lease, row', -, -, -, -, -, -, hrows⟩
  · exact hkept (hsame ▸ hrow)
  · rw [attempt, hrows] at hrow
    split_ifs at hrow with hr
    · obtain rfl := Option.some.inj hrow
      refine ⟨_, List.mem_cons_self, ⟨_, hgranted hlease, hr.symm, rfl⟩, ?_, ?_⟩
      · rw [attempt, hcall]
        exact fun h => by cases h
      · simp only [attempt, hcall]
        rfl
    · exact hkept hrow
  · rw [attempt, hrows] at hrow
    split_ifs at hrow with hr
    · obtain rfl := Option.some.inj hrow
      have hasked := (presented_of_renewal hrenewal).2
      refine ⟨_, List.mem_cons_self, ⟨_, hgranted hlease, hr.symm, hholds.fence.symm⟩,
        fun _ => ?_, ?_⟩
      · exact ⟨lease, by rw [attempt, hrenewal, hasked]⟩
      · simp only [attempt, hasked]
    · exact hkept hrow
  · rw [attempt, hrows] at hrow
    split_ifs at hrow with hr
    · obtain rfl := Option.some.inj hrow
      exact absurd rfl hown
    · exact hkept hrow

theorem LockedStore.Dated.step (h : s.Dated) (e : LockEvent) : (s.step e).Dated := by
  cases e with
  | lock process env =>
    simp only [LockedStore.step]
    split
    · exact h
    · exact h.lock _ _ _
  | _ => exact h

/-! ## When leases are kept -/

/-- A holder's call that succeeds: the lease has not run out when the call gets the lock. -/
def Attempt.Unexpired (a : Attempt) : Prop :=
  ∀ l ∈ a.call.presented, a.answer.isOk = true →
    ∃ row ∈ a.before.row l.resourceId, ∃ e ∈ row.leaseExpiresAt, a.locked < e

/-- A renewal that succeeds does not move the expiry back. -/
def Attempt.Extends (a : Attempt) : Prop :=
  ∀ r ∈ a.call.renewal, a.answer.isOk = true →
    ∀ row ∈ a.before.row r.1.resourceId, ∀ row' ∈ a.after.row r.1.resourceId,
      ∀ e ∈ row.leaseExpiresAt, ∃ e' ∈ row'.leaseExpiresAt, e ≤ e'

/-- No lease is renewed or released after it ran out, and when all renewals ask for the same
`lease_seconds` none of them moves an expiry back. -/
structure LockedStore.KeepsLeases (s : LockedStore) : Prop where
  unexpired : ∀ a ∈ s.attempts, a.Unexpired
  forward : ∀ secs, (∀ a ∈ s.attempts, ∀ r ∈ a.call.renewal, r.2 = secs) →
    ∀ a ∈ s.attempts, a.Extends

/-- The lease of a holder's call does not run out while the call waits for the lock. -/
def WaitingCall.Prompt (w : WaitingCall) (s : LockedStore) : Prop :=
  ∀ l ∈ w.call.presented, ∀ row ∈ s.resources.row l.resourceId, Holds l row →
    ∀ e ∈ row.leaseExpiresAt, w.sampled < e → s.clock < e

/-- No renewal gets the lock after a renewal of its lease that has read a later time, nor asks for
less than is left of what the lease was acquired for. -/
def WaitingCall.InOrder (w : WaitingCall) (s : LockedStore) : Prop :=
  ∀ r ∈ w.call.renewal, ∀ a ∈ s.attempts, a.Granted r.1.resourceId r.1.fencingToken →
    if a.call.isAcquire then a.sampled + a.call.leaseSeconds ≤ w.sampled + r.2
    else a.sampled ≤ w.sampled

/-- The event is no turn at the lock, or a timely one. -/
def LockedStore.Timely (s : LockedStore) : LockEvent → Prop
  | .lock process _ => ∀ w ∈ s.waiting process, w.Prompt s ∧ w.InOrder s
  | _ => True

/-- The store where every call gets the lock in time. -/
def timelyStore : Machine LockedStore LockEvent where
  init := lockedStore.init
  enabled s e := lockedStore.enabled s e ∧ s.Timely e
  step := lockedStore.step

theorem dated_of_reachable (h : lockedStore.Reachable s) : s.Dated :=
  h.invariant (fun s hs r row hrow => by rw [hs.1] at hrow; cases hrow) fun _ e _ h _ => h.step e

theorem reachable_of_timely (h : timelyStore.Reachable s) : lockedStore.Reachable s := by
  induction h with
  | init start => exact .init start
  | step _ enabled ih => exact .step ih enabled.1

theorem Attempt.unexpired_of_prompt (hs : s.Dated) {w : WaitingCall} (hw : w.Prompt s)
    (env : Environment) : (attempt s w env).Unexpired := by
  intro l hl hok
  have hheld : ∀ row, s.resources.row l.resourceId = some row → Holds l row →
      w.sampled < row.leaseExpiresAt.getD 0 →
      ∃ row ∈ s.resources.row l.resourceId, ∃ e ∈ row.leaseExpiresAt, s.clock < e := by
    intro row hrow hholds hlive
    obtain ⟨a, -, hdates⟩ := hs _ row hrow (by simp [hholds.owner])
    rw [hdates.expires] at hlive
    exact ⟨row, hrow, _, hdates.expires, hw l hl row hrow hholds _ hdates.expires hlive⟩
  rcases outcome w.call { env with now := w.sampled } s.resources with
    ⟨e, herror, -⟩ | ⟨args, fence, hcall, -, -⟩ |
    ⟨lease, secs, row, hrenewal, -, hrow, hholds, hlive, -⟩ |
    ⟨lease, row, -, hpresented, -, hrow, hholds, hlive, -⟩
  · rw [attempt, herror] at hok
    cases hok
  · rw [attempt, hcall] at hl
    cases hl
  · obtain rfl : lease = l :=
      Option.some.inj ((presented_of_renewal hrenewal).1.symm.trans hl)
    exact hheld row hrow hholds hlive
  · obtain rfl : lease = l := Option.some.inj (hpresented.symm.trans hl)
    exact hheld row hrow hholds hlive

/-- A call that waits past the expiry and succeeds all the same has used a lease that ran out. -/
theorem Attempt.prompt_of_unexpired {w : WaitingCall} {env : Environment}
    (h : (attempt s w env).Unexpired) (hok : (attempt s w env).answer.isOk = true) : w.Prompt s := by
  intro l hl row hrow _ e he _
  obtain ⟨row', hrow', e', he', hlive⟩ := h l hl hok
  obtain rfl : row = row' := Option.some.inj (hrow.symm.trans hrow')
  obtain rfl : e = e' := Option.some.inj (he.symm.trans he')
  exact hlive

theorem Attempt.extends_of_inOrder (hs : s.Dated) {w : WaitingCall} (hw : w.InOrder s)
    (env : Environment) {secs : ℚ} (hsecs : ∀ a ∈ s.attempts, ∀ r ∈ a.call.renewal, r.2 = secs)
    (hown : ∀ r ∈ w.call.renewal, r.2 = secs) : (attempt s w env).Extends := by
  rintro ⟨l, asked⟩ hl hok row hrow row' hrow' e he
  obtain rfl := hown _ hl
  rcases outcome w.call { env with now := w.sampled } s.resources with
    ⟨e', herror, -⟩ | ⟨args, fence, hcall, -, -⟩ |
    ⟨lease, secs, held, hrenewal, -, hheld, hholds, hlive, hrows⟩ |
    ⟨lease, held, hreleases, -, -, -, -, -, -⟩
  · rw [attempt, herror] at hok
    cases hok
  · rw [attempt, hcall] at hl
    cases hl
  · obtain ⟨rfl, rfl⟩ := Prod.mk.inj (Option.some.inj (hrenewal.symm.trans hl))
    obtain rfl : held = row := Option.some.inj (hheld.symm.trans hrow)
    have hnew : (attempt s w env).after.row lease.resourceId =
        some { held with leaseExpiresAt := some (w.sampled + secs), updatedAt := w.sampled } := by
      rw [attempt, hrows, if_pos rfl]
    obtain rfl := Option.some.inj (hnew.symm.trans hrow')
    refine ⟨w.sampled + secs, rfl, ?_⟩
    obtain ⟨a, ha, hdates⟩ := hs _ held hheld (by simp [hholds.owner])
    obtain rfl := Option.some.inj (hdates.expires.symm.trans he)
    have horder := hw _ hl a ha (hholds.fence ▸ hdates.granted)
    cases hacquire : a.call.isAcquire with
    | true => simpa [hacquire] using horder
    | false =>
      obtain ⟨l, hrenews⟩ := hdates.renews hacquire
      have hsame : a.call.leaseSeconds = secs := hsecs a ha _ hrenews
      rw [hsame]
      simpa [hacquire] using horder
  · rw [attempt, hreleases] at hl
    cases hl

/-- The step lemma. -/
theorem LockedStore.KeepsLeases.step (h : s.KeepsLeases) (hs : s.Dated) {e : LockEvent}
    (he : s.Timely e) : (s.step e).KeepsLeases := by
  cases e with
  | lock process env =>
    cases hw : s.waiting process with
    | none => simpa only [LockedStore.step, hw] using h
    | some w =>
      obtain ⟨hprompt, horder⟩ := he w hw
      simp only [LockedStore.step, hw]
      refine ⟨List.forall_mem_cons.2 ⟨Attempt.unexpired_of_prompt hs hprompt env, h.unexpired⟩,
        fun secs hsecs => ?_⟩
      obtain ⟨hown, hothers⟩ := List.forall_mem_cons.1 hsecs
      exact List.forall_mem_cons.2
        ⟨Attempt.extends_of_inOrder hs horder env hothers hown, h.forward secs hothers⟩
  | _ => exact ⟨h.unexpired, h.forward⟩

/-- While every call gets the lock in time, leases are kept. -/
theorem timely_calls_keep_leases (h : timelyStore.Reachable s) : s.KeepsLeases :=
  h.invariant (P := LockedStore.KeepsLeases)
    (fun s hs => ⟨by simp [hs.2.2], by simp [hs.2.2]⟩)
    fun _ _ hr hk he => hk.step (dated_of_reachable (reachable_of_timely hr)) he.2

/-! ## A heartbeat and a supervisor -/

theorem holds_iff {lease : ProcessLease} {row : ResourceRow} :
    Holds lease row ↔ row.roleId = lease.roleId ∧ row.ownerId = some lease.ownerId ∧
      identityFromRow row = .ok lease.identity ∧ row.nextFence = lease.fencingToken :=
  ⟨fun h => ⟨h.role, h.owner, h.identity, h.fence⟩, fun h => ⟨h.1, h.2.1, h.2.2.1, h.2.2.2⟩⟩

instance holdsDecidable (lease : ProcessLease) (row : ResourceRow) : Decidable (Holds lease row) :=
  decidable_of_iff _ holds_iff.symm

instance promptDecidable (w : WaitingCall) (s : LockedStore) : Decidable (w.Prompt s) := by
  unfold WaitingCall.Prompt
  infer_instance

instance grantedDecidable (a : Attempt) (resource : String) (fence : ℤ) :
    Decidable (a.Granted resource fence) := by
  unfold Attempt.Granted
  infer_instance

instance inOrderDecidable (w : WaitingCall) (s : LockedStore) : Decidable (w.InOrder s) := by
  unfold WaitingCall.InOrder
  infer_instance

instance lockEnabledDecidable (s : LockedStore) (e : LockEvent) :
    Decidable (lockedStore.enabled s e) := by
  cases e <;> unfold lockedStore LockedStore.Enabled <;> infer_instance

instance timelyEnabledDecidable (s : LockedStore) (e : LockEvent) :
    Decidable (timelyStore.enabled s e) := by
  cases e <;> unfold timelyStore lockedStore LockedStore.Enabled LockedStore.Timely <;>
    infer_instance

instance unexpiredDecidable (a : Attempt) : Decidable a.Unexpired := by
  unfold Attempt.Unexpired
  infer_instance

instance extendsDecidable (a : Attempt) : Decidable a.Extends := by
  unfold Attempt.Extends
  infer_instance

def idleStore : LockedStore := ⟨.empty, 100, fun _ => none, []⟩

/-- The farm acquires its lease for 30 seconds. -/
def farmAcquires : List LockEvent :=
  [.sample 0 (.acquire ⟨"canonical_farm", "farm", "owner-a", farmIdentity, 30⟩),
    .lock 0 (farmEnvironment 0)]

/-- Calls wait for a few seconds at most. -/
def timelyEvents : List LockEvent :=
  farmAcquires ++
    [.tick 110, .sample 0 (.renew farmLease 30), .tick 112, .lock 0 (farmEnvironment 0),
      .sample 1 (.release farmLease), .tick 115, .lock 1 (farmEnvironment 0)]

theorem timely_calls_keep_leases_farm :
    (timelyStore.run idleStore timelyEvents).KeepsLeases :=
  timely_calls_keep_leases (Machine.reachable_run timelyEvents ⟨rfl, rfl, rfl⟩ (by decide +kernel))

/-- A renewal waits for 40 seconds, and the lease runs out meanwhile. -/
def lateEvents : List LockEvent :=
  farmAcquires ++
    [.tick 110, .sample 0 (.renew farmLease 30), .tick 150, .lock 0 (farmEnvironment 0)]

/-- The heartbeat reads the clock before the supervisor and gets the lock after it. -/
def reorderedEvents : List LockEvent :=
  farmAcquires ++
    [.tick 110, .sample 0 (.renewLocal farmLease 30), .tick 120,
      .sample 1 (.renewSupervised farmLease 30), .lock 1 (farmEnvironment 0),
      .lock 0 (farmEnvironment 0)]

/-- A renewal revives a lease that has run out, and one moves an expiry back. -/
theorem waiting_renewals_break_leases :
    (∃ s, lockedStore.Reachable s ∧ ∃ a ∈ s.attempts, ¬ a.Unexpired) ∧
    ∃ s, lockedStore.Reachable s ∧ (∀ a ∈ s.attempts, ∀ r ∈ a.call.renewal, r.2 = 30) ∧
      ∃ a ∈ s.attempts, ¬ a.Extends := by
  refine ⟨⟨lockedStore.run idleStore lateEvents, ?_, ?_⟩,
    ⟨lockedStore.run idleStore reorderedEvents, ?_, ?_, ?_⟩⟩
  · exact Machine.reachable_run lateEvents ⟨rfl, rfl, rfl⟩ (by decide +kernel)
  · decide +kernel
  · exact Machine.reachable_run reorderedEvents ⟨rfl, rfl, rfl⟩ (by decide +kernel)
  · decide +kernel
  · decide +kernel

end ResearchLab.Ownership
