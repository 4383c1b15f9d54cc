import Mathlib
import ResearchLab.Foundation.Machine
import ResearchLab.Ownership.Store

/-!
# Mutual exclusion of process owners

Any number of processes call one store, one write transaction after the other. The system
keeps, beside the rows, the leases that were returned: `acquired` by `acquire` alone and
`returned` by any call.
-/
namespace ResearchLab.Ownership
open Foundation

inductive Call
  | acquire (args : AcquireArgs)
  | renew (lease : ProcessLease) (leaseSeconds : ℚ)
  | renewLocal (lease : ProcessLease) (leaseSeconds : ℚ)
  | renewSupervised (lease : ProcessLease) (leaseSeconds : ℚ)
  | release (lease : ProcessLease)
  | releaseLocal (lease : ProcessLease)

structure Input where
  process : ℕ
  call : Call
  env : Environment

structure System where
  resources : Resources
  acquired : List ProcessLease
  returned : List ProcessLease
  clock : ℕ → ℚ

/-- A call with its returned lease, if it returned one. -/
def perform (call : Call) (env : Environment) (db : Resources) :
    Option ProcessLease × Resources :=
  match call with
  | .acquire args => ((acquire args env db).1.toOption, (acquire args env db).2)
  | .renew l secs => ((renew l secs env db).1.toOption, (renew l secs env db).2)
  | .renewLocal l secs => ((renewLocal l secs env db).1.toOption, (renewLocal l secs env db).2)
  | .renewSupervised l secs =>
      ((renewSupervised l secs env db).1.toOption, (renewSupervised l secs env db).2)
  | .release l => (none, (release l env db).2)
  | .releaseLocal l => (none, (releaseLocal l env db).2)

def Call.isAcquire : Call → Bool
  | .acquire _ => true
  | _ => false

/-- The clock of a process never goes backwards; nothing else restricts a call. -/
def ownership : Machine System Input where
  init s := s.resources = Table.empty ∧ s.acquired = [] ∧ s.returned = []
  enabled s i := s.clock i.process ≤ i.env.now
  step s i :=
    let result := perform i.call i.env s.resources
    { resources := result.2
      acquired := s.acquired ++ if i.call.isAcquire then result.1.toList else []
      returned := s.returned ++ result.1.toList
      clock := Function.update s.clock i.process i.env.now }

/-! ## What one call can do to the rows -/

/-- The fence a resource has reached; 0 when it has no row. -/
def currentFence (db : Resources) (resource : String) : ℤ :=
  ((db.row resource).map ResourceRow.nextFence).getD 0

/-- The row carries the owner, identity and fence of the lease, whatever its expiry. -/
structure Holds (lease : ProcessLease) (row : ResourceRow) : Prop where
  role : row.roleId = lease.roleId
  owner : row.ownerId = some lease.ownerId
  identity : identityFromRow row = .ok lease.identity
  fence : row.nextFence = lease.fencingToken

/-- Two leases of one `acquire`: they differ at most in `lease_expires_at`. -/
def SameGeneration (l₁ l₂ : ProcessLease) : Prop :=
  l₂ = { l₁ with leaseExpiresAt := l₂.leaseExpiresAt }

theorem SameGeneration.refl (l : ProcessLease) : SameGeneration l l := rfl

theorem sameGeneration_iff {l₁ l₂ : ProcessLease} :
    SameGeneration l₁ l₂ ↔ l₁.resourceId = l₂.resourceId ∧ l₁.roleId = l₂.roleId ∧
      l₁.ownerId = l₂.ownerId ∧ l₁.identity = l₂.identity ∧
      l₁.fencingToken = l₂.fencingToken := by
  cases l₁
  cases l₂
  simp only [SameGeneration, ProcessLease.mk.injEq, and_true]
  constructor
  · rintro ⟨rfl, rfl, rfl, rfl, rfl⟩
    exact ⟨rfl, rfl, rfl, rfl, rfl⟩
  · rintro ⟨rfl, rfl, rfl, rfl, rfl⟩
    exact ⟨rfl, rfl, rfl, rfl, rfl⟩

theorem Holds.sameGeneration {l₁ l₂ : ProcessLease} {row : ResourceRow}
    (h₁ : Holds l₁ row) (h₂ : Holds l₂ row) (hr : l₁.resourceId = l₂.resourceId) :
    SameGeneration l₁ l₂ := by
  have hi : l₁.identity = l₂.identity := by
    have := h₁.identity.symm.trans h₂.identity
    simpa using this
  have ho : l₁.ownerId = l₂.ownerId := by
    have := h₁.owner.symm.trans h₂.owner
    simpa using this
  exact sameGeneration_iff.2
    ⟨hr, h₁.role.symm.trans h₂.role, ho, hi, h₁.fence.symm.trans h₂.fence⟩

/-- The states of a resource in which `acquire` may take it. -/
inductive Free (env : Environment) : Option ResourceRow → Prop
  | absent : Free env none
  | released {row : ResourceRow} (h : row.ownerId = none) : Free env (some row)
  | expired {row : ResourceRow} {persisted : ProcessIdentity} {expires : ℚ}
      (identity : identityFromRow row = .ok persisted)
      (lease : row.leaseExpiresAt = some expires) (past : expires ≤ env.now)
      (dead : env.probe persisted.pid = .dead ∨
        (env.probe persisted.pid = .failed ∧
          identityPredatesCurrentBoot persisted env = true)) : Free env (some row)

theorem acquireProbe_dead {env : Environment} {persisted : ProcessIdentity} {expires : ℚ}
    (h : acquireProbe env persisted expires = .ok .dead) :
    env.probe persisted.pid = .dead ∨ (env.probe persisted.pid = .failed ∧
      identityPredatesCurrentBoot persisted env = true) := by
  unfold acquireProbe at h
  split at h
  · next hp =>
    split_ifs at h with hb
    exact Or.inr ⟨hp, hb.2⟩
  · next hp =>
    simp only [Except.ok.injEq] at h
    exact Or.inl h

theorem acquireGuard_free {env : Environment} {roleId : String} {row : ResourceRow}
    (h : acquireGuard env roleId row = .ok ()) : Free env (some row) := by
  unfold acquireGuard at h
  split_ifs at h with hc ho hn
  · split at h
    · cases h
    next persisted hi =>
    split at h
    · cases h
    next expires he =>
    split at h
    · cases h
    next live hl =>
    split_ifs at h with h₁ h₂ h₃
    have hpast : expires ≤ env.now := not_lt.1 h₃
    have hdead : live = .dead := by
      by_contra hne
      exact h₂ ⟨hpast, hne⟩
    subst hdead
    exact .expired hi he hpast (acquireProbe_dead hl)
  · exact .released (by simpa using ho)

theorem identityFromRow_ownedRow {args : AcquireArgs} (env : Environment) (fence : ℤ)
    (h : incompleteIdentity args.identity = false) :
    identityFromRow (ownedRow args env fence) = .ok args.identity := by
  simp [identityFromRow, ownedRow, h]

theorem holds_ownedRow {args : AcquireArgs} (env : Environment) (fence : ℤ)
    (h : incompleteIdentity args.identity = false) :
    Holds (leaseOf args env fence) (ownedRow args env fence) :=
  ⟨rfl, rfl, identityFromRow_ownedRow env fence h, rfl⟩

/-- An `acquire` either leaves the rows as they are and raises, or found the resource free
and gives it the next fence. -/
theorem acquire_cases (args : AcquireArgs) (env : Environment) (db : Resources) :
    (∃ e, acquire args env db = (.error e, db)) ∨
    (∃ fence db', acquire args env db = (.ok (leaseOf args env fence), db') ∧
      fence = currentFence db args.resourceId + 1 ∧
      incompleteIdentity args.identity = false ∧
      Free env (db.row args.resourceId) ∧
      ∀ k, db'.row k = if k = args.resourceId then some (ownedRow args env fence)
        else db.row k) := by
  unfold acquire
  split_ifs with ha hi
  · exact Or.inl ⟨_, rfl⟩
  · exact Or.inl ⟨_, rfl⟩
  have hi' : incompleteIdentity args.identity = false := by simpa using hi
  split
  · next hrow =>
    refine Or.inr ⟨_, _, rfl, by simp [currentFence, hrow], hi', hrow ▸ .absent, ?_⟩
    intro k
    by_cases hk : k = args.resourceId
    · subst hk
      simp [Table.insert_row_self hrow]
    · simp [Table.modify_row_of_ne _ hk, Table.insert_row_of_ne hk, hk]
  · next row hrow =>
    split
    · exact Or.inl ⟨_, rfl⟩
    · next hg =>
      refine Or.inr ⟨_, _, rfl, by simp [currentFence, hrow], hi',
        hrow ▸ acquireGuard_free hg, ?_⟩
      intro k
      by_cases hk : k = args.resourceId
      · subst hk
        simp [hrow]
      · simp [Table.modify_row_of_ne _ hk, hk]

/-- A lease that passes the authority check is the generation in the row. -/
theorem assertAuthoritative_holds {lease : ProcessLease} {env : Environment} {b : Bool}
    {db : Resources} {row : ResourceRow}
    (h : assertAuthoritative lease env b db = .ok row) :
    db.row lease.resourceId = some row ∧ Holds lease row := by
  unfold assertAuthoritative at h
  split at h
  · cases h
  next row' hrow =>
  split at h
  · cases h
  split at h
  · cases h
  next persisted hi =>
  split at h
  · cases h
  next hc =>
  simp only [not_or, not_not] at hc
  have hrr : row' = row := by
    split at h
    · split at h
      · cases h
      · split at h
        · simpa using h
        · cases h
    · simpa using h
  subst hrr
  exact ⟨hrow, ⟨hc.1, hc.2.1, hc.2.2.2.1 ▸ hi, hc.2.2.1⟩⟩

theorem updateHeld_row {lease : ProcessLease} {row : ResourceRow} {db : Resources}
    (hrow : db.row lease.resourceId = some row) (hh : Holds lease row)
    (f : ResourceRow → ResourceRow) (k : String) :
    (updateHeld lease f db).row k =
      if k = lease.resourceId then some (f row) else db.row k := by
  by_cases hk : k = lease.resourceId
  · subst hk
    simp [updateHeld, hrow, hh.owner, hh.fence]
  · simp [updateHeld, Table.modify_row_of_ne _ hk, hk]

/-- What any call can do: nothing, the acquisition of a free resource, an extension of the
generation in the row, or its release. -/
inductive Effect (db : Resources) : Call → Environment → Option ProcessLease →
    Resources → Prop
  | unchanged (call : Call) (env : Environment) : Effect db call env none db
  | acquired {args : AcquireArgs} {env : Environment} {fence : ℤ} {db' : Resources}
      (next : fence = currentFence db args.resourceId + 1)
      (complete : incompleteIdentity args.identity = false)
      (free : Free env (db.row args.resourceId))
      (rows : ∀ k, db'.row k = if k = args.resourceId then some (ownedRow args env fence)
        else db.row k) :
      Effect db (.acquire args) env (some (leaseOf args env fence)) db'
  | renewed {call : Call} {env : Environment} {lease : ProcessLease} {row : ResourceRow}
      {expires : ℚ} {db' : Resources} (call_ne : call.isAcquire = false)
      (held : db.row lease.resourceId = some row) (holds : Holds lease row)
      (rows : ∀ k, db'.row k = if k = lease.resourceId then
        some { row with leaseExpiresAt := some expires, updatedAt := env.now }
        else db.row k) :
      Effect db call env (some { lease with leaseExpiresAt := expires }) db'
  | released {call : Call} {env : Environment} {lease : ProcessLease} {row : ResourceRow}
      {db' : Resources} (call_ne : call.isAcquire = false)
      (held : db.row lease.resourceId = some row) (holds : Holds lease row)
      (rows : ∀ k, db'.row k = if k = lease.resourceId then some (releasedRow env row)
        else db.row k) :
      Effect db call env none db'

theorem renewCore_effect {call : Call} (hcall : call.isAcquire = false)
    (lease : ProcessLease) (leaseSeconds : ℚ) (b c₁ c₂ : Bool) (env : Environment)
    (db : Resources) :
    Effect db call env (renewCore lease leaseSeconds b c₁ c₂ env db).1.toOption
      (renewCore lease leaseSeconds b c₁ c₂ env db).2 := by
  unfold renewCore
  split
  · exact .unchanged _ _
  split
  · exact .unchanged _ _
  split
  · exact .unchanged _ _
  next row hrow =>
  split
  · exact .unchanged _ _
  · obtain ⟨hr, hh⟩ := assertAuthoritative_holds hrow
    exact .renewed hcall hr hh (updateHeld_row hr hh _)

theorem releaseCore_effect {call : Call} (hcall : call.isAcquire = false)
    (lease : ProcessLease) (b : Bool) (env : Environment) (db : Resources) :
    Effect db call env none (releaseCore lease b env db).2 := by
  unfold releaseCore
  split
  · exact .unchanged _ _
  next row hrow =>
    obtain ⟨hr, hh⟩ := assertAuthoritative_holds hrow
    exact .released hcall hr hh (updateHeld_row hr hh _)

theorem perform_effect (call : Call) (env : Environment) (db : Resources) :
    Effect db call env (perform call env db).1 (perform call env db).2 := by
  cases call with
  | acquire args =>
    rcases acquire_cases args env db with ⟨e, h⟩ | ⟨fence, db', h, hf, hc, hfree, hrows⟩
    · simpa [perform, h, Except.toOption] using Effect.unchanged (.acquire args) env
    · simpa [perform, h, Except.toOption] using Effect.acquired hf hc hfree hrows
  | renew l secs => exact renewCore_effect rfl l secs true false false env db
  | renewLocal l secs =>
    simp only [perform, renewLocal]
    split
    · exact .unchanged _ _
    · exact renewCore_effect rfl l secs false _ _ env db
  | renewSupervised l secs =>
    simp only [perform, renewSupervised]
    split_ifs with h
    · exact .unchanged _ _
    split
    · exact .unchanged _ _
    · split_ifs
      · exact renewCore_effect rfl l secs false _ _ env db
      · exact .unchanged _ _
  | release l => exact releaseCore_effect rfl l true env db
  | releaseLocal l =>
    simp only [perform, releaseLocal]
    split
    · exact .unchanged _ _
    · exact releaseCore_effect rfl l false env db

/-! ## The invariant -/

/-- The leases `acquire` handed out for one resource, oldest first. -/
def acquiredOf (acquired : List ProcessLease) (resource : String) : List ProcessLease :=
  acquired.filter fun l => l.resourceId = resource

structure Inv (s : System) : Prop where
  fences : ∀ r, (acquiredOf s.acquired r).map ProcessLease.fencingToken =
    (List.range (acquiredOf s.acquired r).length).map fun k : ℕ => (k : ℤ) + 1
  current : ∀ r, currentFence s.resources r = (acquiredOf s.acquired r).length
  owned : ∀ r row, s.resources.row r = some row → row.ownerId ≠ none →
    ∃ a ∈ s.acquired, a.resourceId = r ∧ Holds a row
  returned : ∀ l ∈ s.returned, ∃ a ∈ s.acquired, SameGeneration a l

theorem acquiredOf_append_singleton (acquired : List ProcessLease) (l : ProcessLease)
    (r : String) : acquiredOf (acquired ++ [l]) r =
      acquiredOf acquired r ++ if l.resourceId = r then [l] else [] := by
  by_cases h : l.resourceId = r <;> simp [acquiredOf, List.filter_append, h]

theorem Holds.extend {l : ProcessLease} {row : ResourceRow} (h : Holds l row)
    (expires : Option ℚ) (updatedAt : ℚ) :
    Holds l { row with leaseExpiresAt := expires, updatedAt := updatedAt } :=
  ⟨h.role, h.owner, h.identity, h.fence⟩

theorem currentFence_of_rows {db db' : Resources} {r : String} {row' : ResourceRow}
    (rows : ∀ k, db'.row k = if k = r then some row' else db.row k) (k : String) :
    currentFence db' k = if k = r then row'.nextFence else currentFence db k := by
  by_cases hk : k = r <;> simp [currentFence, rows, hk]

theorem currentFence_of_same {db db' : Resources} {r : String} {row : ResourceRow}
    (held : db.row r = some row) (row' : ResourceRow) (hf : row'.nextFence = row.nextFence)
    (rows : ∀ k, db'.row k = if k = r then some row' else db.row k) (k : String) :
    currentFence db' k = currentFence db k := by
  rw [currentFence_of_rows rows]
  split_ifs with hk
  · subst hk
    simp [currentFence, held, hf]
  · rfl

/-- The step lemma: every effect of a call keeps the invariant. -/
theorem Inv.effect {s : System} (h : Inv s) {call : Call} {env : Environment}
    {out : Option ProcessLease} {db' : Resources} (clock : ℕ → ℚ)
    (he : Effect s.resources call env out db') :
    Inv ⟨db', s.acquired ++ if call.isAcquire then out.toList else [],
      s.returned ++ out.toList, clock⟩ := by
  cases he with
  | unchanged => simpa using ⟨h.fences, h.current, h.owned, h.returned⟩
  | @acquired args _ fence _ hnext hcomplete _ rows =>
    have hcur : ∀ r, currentFence db' r = (acquiredOf (s.acquired ++
        [leaseOf args env fence]) r).length := by
      intro r
      rw [currentFence_of_rows rows, acquiredOf_append_singleton]
      by_cases hr : r = args.resourceId
      · subst hr
        simp [ownedRow, leaseOf, hnext, h.current]
      · simp [hr, leaseOf, Ne.symm hr, h.current]
    refine ⟨fun r => ?_, by simpa [Call.isAcquire] using hcur, fun r row hrow hown => ?_,
      fun l hl => ?_⟩
    · simp only [Call.isAcquire, if_true, Option.toList_some, acquiredOf_append_singleton]
      by_cases hr : args.resourceId = r
      · have hc := h.current args.resourceId
        subst hr
        simp [leaseOf, h.fences, hnext, hc, List.range_succ]
      · simp [leaseOf, hr, h.fences]
    · simp only [rows] at hrow
      split_ifs at hrow with hr
      · obtain rfl : ownedRow args env fence = row := by simpa using hrow
        exact ⟨leaseOf args env fence, by simp [Call.isAcquire], hr.symm,
          holds_ownedRow env fence hcomplete⟩
      · obtain ⟨a, ha, har, hh⟩ := h.owned r row hrow hown
        exact ⟨a, by simp [ha], har, hh⟩
    · rcases List.mem_append.1 hl with hl | hl
      · obtain ⟨a, ha, hsame⟩ := h.returned l hl
        exact ⟨a, by simp [ha], hsame⟩
      · obtain rfl : l = leaseOf args env fence := by simpa using hl
        exact ⟨_, by simp [Call.isAcquire], .refl _⟩
  | @renewed _ _ lease row expires _ hcall held holds rows =>
    have hcur := currentFence_of_same held (
      { row with leaseExpiresAt := some expires, updatedAt := env.now }) rfl rows
    obtain ⟨a, ha, har, hh⟩ := h.owned _ row held (by simp [holds.owner])
    refine ⟨by simpa [hcall] using h.fences, by simpa [hcall, hcur] using h.current,
      fun r row' hrow hown => ?_, fun l hl => ?_⟩
    · simp only [rows] at hrow
      split_ifs at hrow with hr
      · obtain rfl : _ = row' := by simpa using hrow
        exact ⟨a, by simp [ha], har.trans hr.symm, hh.extend _ _⟩
      · obtain ⟨a', ha', har', hh'⟩ := h.owned r row' hrow hown
        exact ⟨a', by simp [ha'], har', hh'⟩
    · rcases List.mem_append.1 hl with hl | hl
      · obtain ⟨a', ha', hsame⟩ := h.returned l hl
        exact ⟨a', by simp [ha'], hsame⟩
      · obtain rfl : l = { lease with leaseExpiresAt := expires } := by simpa using hl
        have := sameGeneration_iff.1 (hh.sameGeneration holds har)
        exact ⟨a, by simp [ha], sameGeneration_iff.2 this⟩
  | @released _ _ lease row _ hcall held holds rows =>
    have hcur := currentFence_of_same held (releasedRow env row) rfl rows
    refine ⟨by simpa [hcall] using h.fences, by simpa [hcall, hcur] using h.current,
      fun r row' hrow hown => ?_, fun l hl => ?_⟩
    · simp only [rows] at hrow
      split_ifs at hrow with hr
      · obtain rfl : _ = row' := by simpa using hrow
        exact absurd rfl hown
      · obtain ⟨a', ha', har', hh'⟩ := h.owned r row' hrow hown
        exact ⟨a', by simp [ha'], har', hh'⟩
    · obtain ⟨a', ha', hsame⟩ := h.returned l (by simpa using hl)
      exact ⟨a', by simp [ha'], hsame⟩

theorem inv_of_reachable {s : System} (hs : ownership.Reachable s) : Inv s := by
  refine hs.invariant ?_ ?_
  · rintro s ⟨hdb, ha, hr⟩
    exact ⟨by simp [ha, acquiredOf], by simp [ha, hdb, acquiredOf, currentFence],
      by simp [hdb], by simp [hr]⟩
  · exact fun s i _ h _ => h.effect _ (perform_effect i.call i.env s.resources)

/-- The fence of a resource never goes back. -/
theorem Effect.currentFence_le {db db' : Resources} {call : Call} {env : Environment}
    {out : Option ProcessLease} (he : Effect db call env out db') (r : String) :
    currentFence db r ≤ currentFence db' r := by
  cases he with
  | unchanged => exact le_rfl
  | acquired hnext _ _ rows =>
    rw [currentFence_of_rows rows]
    split_ifs with hr
    · subst hr
      simp [ownedRow, hnext]
    · exact le_rfl
  | @renewed _ _ _ row expires _ _ held _ rows =>
    exact (currentFence_of_same held (
      { row with leaseExpiresAt := some expires, updatedAt := env.now }) rfl rows r).ge
  | @released _ _ _ row _ _ held _ rows =>
    exact (currentFence_of_same held (releasedRow env row) rfl rows r).ge

theorem currentFence_mono {s t : System} {is : List Input} (hs : ownership.Steps s is t)
    (hr : ownership.Reachable s) (r : String) :
    currentFence s.resources r ≤ currentFence t.resources r :=
  hs.relates (R := fun s t => currentFence s.resources r ≤ currentFence t.resources r)
    (fun _ => le_rfl) (fun _ _ _ => le_trans)
    (fun s i _ _ => (perform_effect i.call i.env s.resources).currentFence_le r) hr

/-- A lease that was returned carries a fence its resource has reached. -/
theorem Inv.returned_fence_le {s : System} (h : Inv s) {l : ProcessLease}
    (hl : l ∈ s.returned) : l.fencingToken ≤ currentFence s.resources l.resourceId := by
  obtain ⟨a, ha, hsame⟩ := h.returned l hl
  obtain ⟨hr, -, -, -, hf⟩ := sameGeneration_iff.1 hsame
  have hmem : a.fencingToken ∈ (acquiredOf s.acquired l.resourceId).map
      ProcessLease.fencingToken :=
    List.mem_map_of_mem (by simp [acquiredOf, ha, hr])
  rw [h.fences, List.mem_map] at hmem
  obtain ⟨k, hk, hke⟩ := hmem
  have := List.mem_range.1 hk
  rw [h.current, ← hf, ← hke]
  omega

/-! ## Mutual exclusion -/

def Passes (lease : ProcessLease) (env : Environment) (b : Bool) (db : Resources) : Prop :=
  ∃ row, assertAuthoritative lease env b db = .ok row

theorem Passes.fence {lease : ProcessLease} {env : Environment} {b : Bool} {db : Resources}
    (h : Passes lease env b db) : currentFence db lease.resourceId = lease.fencingToken := by
  obtain ⟨row, hrow⟩ := h
  obtain ⟨hdb, hh⟩ := assertAuthoritative_holds hrow
  simp [currentFence, hdb, hh.fence]

theorem Passes.generation {s : System} (h : Inv s) {l₁ l₂ : ProcessLease}
    {env₁ env₂ : Environment} {b₁ b₂ : Bool} (hr : l₁.resourceId = l₂.resourceId)
    (h₁ : Passes l₁ env₁ b₁ s.resources) (h₂ : Passes l₂ env₂ b₂ s.resources) :
    ∃ a ∈ s.acquired, SameGeneration a l₁ ∧ SameGeneration a l₂ := by
  obtain ⟨row₁, hrow₁⟩ := h₁
  obtain ⟨row₂, hrow₂⟩ := h₂
  obtain ⟨hdb₁, hh₁⟩ := assertAuthoritative_holds hrow₁
  obtain ⟨hdb₂, hh₂⟩ := assertAuthoritative_holds hrow₂
  obtain rfl : row₁ = row₂ := by
    rw [hr, hdb₂] at hdb₁
    exact (Option.some.inj hdb₁).symm
  obtain ⟨a, ha, har, hh⟩ := h.owned _ _ hdb₁ (by simp [hh₁.owner])
  exact ⟨a, ha, hh.sameGeneration hh₁ har, hh.sameGeneration hh₂ (har.trans hr)⟩

/-- A successful `acquire` ends the authority of every lease returned before it, for good. -/
theorem acquire_revokes {s t : System} {i : Input} {is : List Input} {args : AcquireArgs}
    {l : ProcessLease} (hs : ownership.Reachable s) (hl : l ∈ s.returned)
    (hi : ownership.enabled s i) (hcall : i.call = .acquire args)
    (hres : args.resourceId = l.resourceId)
    (hok : (perform i.call i.env s.resources).1.isSome = true)
    (hst : ownership.Steps (ownership.step s i) is t) (env : Environment) (b : Bool) :
    ¬ Passes l env b t.resources := by
  intro hp
  have hle := (inv_of_reachable hs).returned_fence_le hl
  have hgt : currentFence s.resources l.resourceId <
      currentFence (ownership.step s i).resources l.resourceId := by
    have he := perform_effect i.call i.env s.resources
    simp only [ownership, hcall] at he hok ⊢
    generalize perform (.acquire args) i.env s.resources = out at he hok ⊢
    obtain ⟨lease, db'⟩ := out
    cases he with
    | unchanged => simp at hok
    | acquired hnext _ _ rows =>
      simp [currentFence_of_rows rows, hres, ownedRow, hnext]
    | renewed hne => simp [Call.isAcquire] at hne
    | released hne => simp [Call.isAcquire] at hne
  have hmono := currentFence_mono hst (.step hs hi) l.resourceId
  have := hp.fence
  omega

theorem ownership_exclusion {s : System} (hs : ownership.Reachable s) :
    (∀ r, (acquiredOf s.acquired r).map ProcessLease.fencingToken =
      (List.range (acquiredOf s.acquired r).length).map fun k : ℕ => (k : ℤ) + 1) ∧
    (∀ l₁ ∈ s.returned, ∀ l₂ ∈ s.returned, l₁.resourceId = l₂.resourceId →
      ∀ env₁ env₂ b₁ b₂, Passes l₁ env₁ b₁ s.resources → Passes l₂ env₂ b₂ s.resources →
        SameGeneration l₁ l₂ ∧ ∃ a ∈ s.acquired, SameGeneration a l₁ ∧ SameGeneration a l₂) ∧
    (∀ l ∈ s.returned, ∀ i args, ownership.enabled s i → i.call = .acquire args →
      args.resourceId = l.resourceId → (perform i.call i.env s.resources).1.isSome = true →
      ∀ is t, ownership.Steps (ownership.step s i) is t →
        ∀ env b, ¬ Passes l env b t.resources) ∧
    (∀ args env lease db', acquire args env s.resources = (.ok lease, db') →
      Free env (s.resources.row args.resourceId)) := by
  have hinv := inv_of_reachable hs
  refine ⟨hinv.fences, ?_, ?_, ?_⟩
  · intro l₁ _ l₂ _ hr env₁ env₂ b₁ b₂ h₁ h₂
    obtain ⟨a, ha, ha₁, ha₂⟩ := Passes.generation hinv hr h₁ h₂
    refine ⟨?_, a, ha, ha₁, ha₂⟩
    obtain ⟨e₁, e₂, e₃, e₄, e₅⟩ := sameGeneration_iff.1 ha₁
    obtain ⟨f₁, f₂, f₃, f₄, f₅⟩ := sameGeneration_iff.1 ha₂
    exact sameGeneration_iff.2 ⟨hr, e₂.symm.trans f₂, e₃.symm.trans f₃, e₄.symm.trans f₄,
      e₅.symm.trans f₅⟩
  · exact fun l hl i args hi hcall hres hok is t hst env b =>
      acquire_revokes hs hl hi hcall hres hok hst env b
  · intro args env lease db' h
    rcases acquire_cases args env s.resources with ⟨e, he⟩ | ⟨_, _, _, _, _, hfree, _⟩
    · simp [he] at h
    · exact hfree

/-! ## A farm owner that renews its lease -/

def farmIdentity : ProcessIdentity := ⟨11, 50, "python", "sha256:farm"⟩

def farmEnvironment (now : ℚ) : Environment where
  now := now
  probe := fun _ => .live farmIdentity
  bootedAt := 10
  currentPid := 11
  localStartedAt := some 50
  cancelBeforeProbe := false
  cancelBeforeCheck := false
  cancelBeforeUpdate := false

def farmStart : System := ⟨.empty, [], [], fun _ => 0⟩

def farmLease : ProcessLease := ⟨"canonical_farm", "farm", "owner-a", farmIdentity, 1, 130⟩

def farmRun : List Input :=
  [⟨0, .acquire ⟨"canonical_farm", "farm", "owner-a", farmIdentity, 30⟩, farmEnvironment 100⟩,
    ⟨0, .renew farmLease 30, farmEnvironment 110⟩]

theorem farmRun_reachable : ownership.Reachable (ownership.run farmStart farmRun) :=
  Machine.reachable_run farmRun ⟨rfl, rfl, rfl⟩
    ⟨by simp [ownership, farmStart, farmEnvironment],
      by simp [ownership, farmStart, farmEnvironment]; norm_num, trivial⟩

def farmRenewedLease : ProcessLease := { farmLease with leaseExpiresAt := 140 }

theorem farmRun_returned :
    (ownership.run farmStart farmRun).returned = [farmLease, farmRenewedLease] := by
  decide +kernel

theorem farmRun_passes {l : ProcessLease} (hl : l ∈ [farmLease, farmRenewedLease]) :
    Passes l (farmEnvironment 120) true (ownership.run farmStart farmRun).resources := by
  have hall : ∀ l ∈ [farmLease, farmRenewedLease],
      (assertAuthoritative l (farmEnvironment 120) true
        (ownership.run farmStart farmRun).resources).isOk = true := by
    decide +kernel
  have := hall l hl
  unfold Passes
  cases hc : assertAuthoritative l (farmEnvironment 120) true
    (ownership.run farmStart farmRun).resources with
  | error e => simp [hc, Except.isOk, Except.toBool] at this
  | ok row => exact ⟨row, rfl⟩

/-- Both the lease that `acquire` returned and the one that `renew` returned pass the
authority check afterwards: they are two leases of one generation. -/
theorem renewed_and_original_lease_pass :
    ¬ ∀ s, ownership.Reachable s → ∀ l₁ ∈ s.returned, ∀ l₂ ∈ s.returned,
      l₁.resourceId = l₂.resourceId → ∀ env b, Passes l₁ env b s.resources →
        Passes l₂ env b s.resources → l₁ = l₂ := by
  intro h
  have := h _ farmRun_reachable farmLease (by simp [farmRun_returned]) farmRenewedLease
    (by simp [farmRun_returned]) rfl _ _ (farmRun_passes (by simp)) (farmRun_passes (by simp))
  simp [farmRenewedLease, farmLease] at this

/-- A second owner, after the lease has run out and the first process is reported dead. -/
def farmTakeover : Input :=
  ⟨1, .acquire ⟨"canonical_farm", "farm", "owner-b", farmIdentity, 30⟩,
    { farmEnvironment 150 with probe := fun _ => .dead }⟩

theorem ownership_exclusion_farmRun :
    (acquiredOf (ownership.run farmStart farmRun).acquired "canonical_farm").map
      ProcessLease.fencingToken = [1] ∧
    SameGeneration farmLease farmRenewedLease ∧
    ¬ Passes farmRenewedLease (farmEnvironment 130) true
      (ownership.step (ownership.run farmStart farmRun) farmTakeover).resources := by
  obtain ⟨hfences, hone, hrevoked, -⟩ := ownership_exclusion farmRun_reachable
  refine ⟨?_, ?_, ?_⟩
  · rw [hfences]
    decide +kernel
  · exact (hone farmLease (by simp [farmRun_returned]) farmRenewedLease
      (by simp [farmRun_returned]) rfl _ _ _ _ (farmRun_passes (by simp))
      (farmRun_passes (by simp))).1
  · exact hrevoked farmRenewedLease (by simp [farmRun_returned]) farmTakeover _
      (by simp [ownership, farmTakeover, farmEnvironment, farmStart, farmRun]) rfl rfl
      (by decide +kernel) [] _ (.nil _) _ _

end ResearchLab.Ownership
