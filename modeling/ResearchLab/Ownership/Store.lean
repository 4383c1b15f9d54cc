import Mathlib
import ResearchLab.Foundation.Table

/-!
# The process-ownership store

`ownership_resources` has one row per resource. Each public call reads the clock once,
before `BEGIN IMMEDIATE`, and then runs one write transaction. Seconds since the epoch are
rational numbers.
-/
namespace ResearchLab.Ownership
open Foundation

structure ProcessIdentity where
  pid : ℤ
  startedAt : ℚ
  executable : String
  commandDigest : String
  deriving DecidableEq, Repr

structure ProcessLease where
  resourceId : String
  roleId : String
  ownerId : String
  identity : ProcessIdentity
  fencingToken : ℤ
  leaseExpiresAt : ℚ
  deriving DecidableEq, Repr

inductive OwnershipError
  | value (message : String)
  | conflict (message : String)
  | stale (message : String)
  deriving DecidableEq, Repr

/-- A row of `ownership_resources`; every nullable column is an option. -/
structure ResourceRow where
  roleId : String
  ownerId : Option String
  pid : Option ℤ
  startedAt : Option ℚ
  executable : Option String
  commandDigest : Option String
  leaseExpiresAt : Option ℚ
  nextFence : ℤ
  updatedAt : ℚ
  deriving DecidableEq, Repr

abbrev Resources := Table String ResourceRow

/-- What the identity probe says of a process: its exact tuple, that it does not exist, or
an `OwnershipConflictError` when it cannot be read. -/
inductive ProbeAnswer
  | live (identity : ProcessIdentity)
  | dead
  | failed
  deriving DecidableEq, Repr

/-- What one call reads from outside the store. -/
structure Environment where
  now : ℚ
  probe : ℤ → ProbeAnswer
  bootedAt : ℚ
  currentPid : ℤ
  localStartedAt : Option ℚ
  cancelBeforeProbe : Bool
  cancelBeforeCheck : Bool
  cancelBeforeUpdate : Bool

/-- Prove that a persisted process cannot belong to the current boot. -/
def identityPredatesCurrentBoot (identity : ProcessIdentity) (env : Environment) : Bool :=
  decide (0 < env.bootedAt ∧ env.bootedAt ≤ env.now ∧
    identity.startedAt < env.bootedAt - 1)

def incompleteIdentity (identity : ProcessIdentity) : Bool :=
  decide (identity.pid ≤ 0 ∨ identity.startedAt ≤ 0 ∨ identity.executable = "" ∨
    identity.commandDigest = "")

def identityFromRow (row : ResourceRow) : Except OwnershipError ProcessIdentity :=
  match row.pid, row.startedAt with
  | some pid, some startedAt =>
      -- `str(None)` is the text "None", so a missing text column is not an error here.
      let identity : ProcessIdentity :=
        ⟨pid, startedAt, row.executable.getD "None", row.commandDigest.getD "None"⟩
      if incompleteIdentity identity then .error (.conflict "corrupt ownership identity")
      else .ok identity
  | _, _ => .error (.conflict "corrupt ownership identity")

def sameIdentity (live : ProbeAnswer) (identity : ProcessIdentity) : Bool :=
  decide (live = .live identity)

/-- The probe inside `acquire`: a failed probe counts as a dead process only for an expired
lease from before the current boot. -/
def acquireProbe (env : Environment) (persisted : ProcessIdentity) (expires : ℚ) :
    Except OwnershipError ProbeAnswer :=
  match env.probe persisted.pid with
  | .failed =>
      if expires ≤ env.now ∧ identityPredatesCurrentBoot persisted env = true then .ok .dead
      else .error (.conflict "process identity probe failed")
  | answer => .ok answer

/-- What `acquire` demands of an existing row. -/
def acquireGuard (env : Environment) (roleId : String) (row : ResourceRow) :
    Except OwnershipError Unit :=
  if row.nextFence < 0 ∨ row.roleId = "" ∨ row.roleId ≠ roleId then
    .error (.conflict "corrupt ownership fence")
  else if row.ownerId ≠ none then
    match identityFromRow row with
    | .error e => .error e
    | .ok persisted =>
        match row.leaseExpiresAt with
        | none => .error (.conflict "corrupt ownership lease")
        | some expires =>
            match acquireProbe env persisted expires with
            | .error e => .error e
            | .ok live =>
                if expires ≤ env.now ∧ sameIdentity live persisted = true then
                  .error (.conflict "expired_alive_conflict")
                else if expires ≤ env.now ∧ live ≠ .dead then
                  .error (.conflict "identity_mismatch")
                else if env.now < expires then
                  .error (.conflict "resource already owned")
                else .ok ()
  else if row.pid ≠ none ∨ row.startedAt ≠ none ∨ row.executable ≠ none ∨
      row.commandDigest ≠ none ∨ row.leaseExpiresAt ≠ none then
    .error (.conflict "corrupt released ownership state")
  else .ok ()

structure AcquireArgs where
  resourceId : String
  roleId : String
  ownerId : String
  identity : ProcessIdentity
  leaseSeconds : ℚ

def ownedRow (args : AcquireArgs) (env : Environment) (fence : ℤ) : ResourceRow where
  roleId := args.roleId
  ownerId := some args.ownerId
  pid := some args.identity.pid
  startedAt := some args.identity.startedAt
  executable := some args.identity.executable
  commandDigest := some args.identity.commandDigest
  leaseExpiresAt := some (env.now + args.leaseSeconds)
  nextFence := fence
  updatedAt := env.now

def leaseOf (args : AcquireArgs) (env : Environment) (fence : ℤ) : ProcessLease :=
  ⟨args.resourceId, args.roleId, args.ownerId, args.identity, fence,
    env.now + args.leaseSeconds⟩

/-- The insert of a resource that has no row yet. -/
def unownedRow (roleId : String) (env : Environment) : ResourceRow :=
  ⟨roleId, none, none, none, none, none, none, 0, env.now⟩

def acquire (args : AcquireArgs) (env : Environment) (db : Resources) :
    Except OwnershipError ProcessLease × Resources :=
  if args.resourceId = "" ∨ args.roleId = "" ∨ args.ownerId = "" ∨ args.leaseSeconds ≤ 0 then
    (.error (.value "resource, role, owner, and positive lease are required"), db)
  else if incompleteIdentity args.identity then
    (.error (.value "complete process identity is required"), db)
  else
    match db.row args.resourceId with
    | none =>
        let inserted := db.insert args.resourceId (unownedRow args.roleId env)
        (.ok (leaseOf args env (0 + 1)),
          inserted.modify args.resourceId fun _ => ownedRow args env (0 + 1))
    | some row =>
        match acquireGuard env args.roleId row with
        | .error e => (.error e, db)
        | .ok () =>
            let fence := row.nextFence + 1
            (.ok (leaseOf args env fence),
              db.modify args.resourceId fun _ => ownedRow args env fence)

/-- The check under every mutation by a lease holder. It compares everything in the lease
but its own `lease_expires_at`: the expiry that counts is the row's. -/
def assertAuthoritative (lease : ProcessLease) (env : Environment)
    (revalidateProcessIdentity : Bool) (db : Resources) :
    Except OwnershipError ResourceRow :=
  match db.row lease.resourceId with
  | none => .error (.stale "lease is no longer owned")
  | some row =>
      if row.ownerId = none then .error (.stale "lease is no longer owned")
      else
        match identityFromRow row with
        | .error e => .error e
        | .ok persisted =>
            if row.roleId ≠ lease.roleId ∨ row.ownerId ≠ some lease.ownerId ∨
                row.nextFence ≠ lease.fencingToken ∨ persisted ≠ lease.identity ∨
                row.leaseExpiresAt.getD 0 ≤ env.now then
              .error (.stale "stale process lease")
            else if revalidateProcessIdentity then
              match env.probe persisted.pid with
              | .failed => .error (.stale "process identity cannot be revalidated")
              | live =>
                  if sameIdentity live persisted then .ok row
                  else .error (.stale "process identity no longer matches lease")
            else .ok row

def assertLocalHolder (lease : ProcessLease) (env : Environment) :
    Except OwnershipError Unit :=
  if lease.identity.pid ≠ env.currentPid then
    .error (.stale "local process does not hold the persisted process lease")
  else
    match env.localStartedAt with
    | none => .error (.stale "local process start identity cannot be verified")
    | some startedAt =>
        if 1 / 1000 < |startedAt - lease.identity.startedAt| then
          .error (.stale "local process generation does not match the persisted lease")
        else .ok ()

/-- `UPDATE ... WHERE resource_id=? AND owner_id=? AND next_fence=?`. -/
def updateHeld (lease : ProcessLease) (f : ResourceRow → ResourceRow) (db : Resources) :
    Resources :=
  db.modify lease.resourceId fun row =>
    if row.ownerId = some lease.ownerId ∧ row.nextFence = lease.fencingToken then f row
    else row

def renewCore (lease : ProcessLease) (leaseSeconds : ℚ) (revalidate : Bool)
    (cancelBeforeCheck cancelBeforeUpdate : Bool) (env : Environment) (db : Resources) :
    Except OwnershipError ProcessLease × Resources :=
  if leaseSeconds ≤ 0 then (.error (.value "positive lease is required"), db)
  else if cancelBeforeCheck then
    (.error (.stale "process lease renewal cancelled before mutation"), db)
  else
    match assertAuthoritative lease env revalidate db with
    | .error e => (.error e, db)
    | .ok _ =>
        if cancelBeforeUpdate then
          (.error (.stale "process lease renewal cancelled before mutation"), db)
        else
          let expiresAt := env.now + leaseSeconds
          (.ok { lease with leaseExpiresAt := expiresAt },
            updateHeld lease
              (fun row => { row with leaseExpiresAt := some expiresAt, updatedAt := env.now })
              db)

def renew (lease : ProcessLease) (leaseSeconds : ℚ) (env : Environment) (db : Resources) :
    Except OwnershipError ProcessLease × Resources :=
  renewCore lease leaseSeconds true false false env db

def renewLocal (lease : ProcessLease) (leaseSeconds : ℚ) (env : Environment)
    (db : Resources) : Except OwnershipError ProcessLease × Resources :=
  match assertLocalHolder lease env with
  | .error e => (.error e, db)
  | .ok () =>
      renewCore lease leaseSeconds false env.cancelBeforeCheck env.cancelBeforeUpdate env db

def renewSupervised (lease : ProcessLease) (leaseSeconds : ℚ) (env : Environment)
    (db : Resources) : Except OwnershipError ProcessLease × Resources :=
  if env.cancelBeforeProbe then
    (.error (.stale "process lease renewal cancelled before identity probe"), db)
  else
    match env.probe lease.identity.pid with
    | .failed => (.error (.stale "process identity cannot be revalidated"), db)
    | live =>
        if sameIdentity live lease.identity then
          renewCore lease leaseSeconds false env.cancelBeforeCheck env.cancelBeforeUpdate
            env db
        else (.error (.stale "process identity no longer matches supervised lease"), db)

def releasedRow (env : Environment) (row : ResourceRow) : ResourceRow :=
  { row with
    ownerId := none, pid := none, startedAt := none, executable := none,
    commandDigest := none, leaseExpiresAt := none, updatedAt := env.now }

def releaseCore (lease : ProcessLease) (revalidate : Bool) (env : Environment)
    (db : Resources) : Except OwnershipError Unit × Resources :=
  match assertAuthoritative lease env revalidate db with
  | .error e => (.error e, db)
  | .ok _ => (.ok (), updateHeld lease (releasedRow env) db)

def release (lease : ProcessLease) (env : Environment) (db : Resources) :
    Except OwnershipError Unit × Resources :=
  releaseCore lease true env db

def releaseLocal (lease : ProcessLease) (env : Environment) (db : Resources) :
    Except OwnershipError Unit × Resources :=
  match assertLocalHolder lease env with
  | .error e => (.error e, db)
  | .ok () => releaseCore lease false env db

end ResearchLab.Ownership
