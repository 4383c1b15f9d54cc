import Mathlib
import ResearchLab.Foundation.FloatSum
import ResearchLab.Foundation.Machine
import ResearchLab.Foundation.Sorting
import ResearchLab.Foundation.Table

/-!
# The invocation ledger

One row for each event of a call. A root without runtime storage reads the rows back from the
file; a root with it asks an index that is kept beside the stream. A cost is a finite float, and
each root adds the costs up in an order of its own.
-/
namespace ResearchLab.Invocations
open Foundation

structure EndpointIdentity where
  scheme : String
  host : String
  port : Option ℤ
  basePath : String
  normalizedBaseUrl : String
  loopbackProven : Bool
  problems : List String
  deriving DecidableEq

/-- Whatever issues a permit gives it an id. -/
structure Permit where
  invocationId : String
  roleId : String
  sourceRef : String
  inputHash : String
  provider : String
  model : String
  allowed : Bool
  reason : String
  createdAt : String
  providerClass : String
  endpointIdentity : Option EndpointIdentity
  boundaryChecks : List String
  identified : invocationId ≠ ""
  deriving DecidableEq

inductive EventPhase
  | started
  | completed
  deriving DecidableEq, Repr

def EventPhase.word : EventPhase → String
  | started => "started"
  | completed => "completed"

/-- What `record_invocation` writes. -/
structure Row where
  permit : Permit
  status : String
  outputRef : String
  outputHash : String
  problems : List String
  surface : String
  correlationId : String
  eventPhase : EventPhase
  responseReceived : Bool
  attemptCount : ℕ
  inputTokens : ℤ
  outputTokens : ℤ
  totalTokens : ℤ
  costRub : ℚ
  completedAt : String
  deriving DecidableEq

def circuitFailureLimit : ℕ := 3

def maxRetryableAttempts : ℕ := 3

def retryableCallStatuses : List String := ["provider_error", "schema_rejected"]

def localProviderNames : List String := ["ollama", "ollama-local"]

def testProviderNames : List String := ["synthetic"]

def EndpointIdentity.texts (e : EndpointIdentity) : List String :=
  [e.scheme, e.host, e.basePath, e.normalizedBaseUrl] ++ e.problems

/-- The texts of a row. -/
def Row.texts (r : Row) : List String :=
  [r.permit.invocationId, r.permit.roleId, r.permit.sourceRef, r.permit.inputHash,
    r.permit.provider, r.permit.model, r.permit.reason, r.permit.createdAt,
    r.permit.providerClass, r.status, r.outputRef, r.outputHash, r.surface, r.correlationId,
    r.eventPhase.word, r.completedAt] ++ r.permit.boundaryChecks ++ r.problems ++
    (r.permit.endpointIdentity.map EndpointIdentity.texts).getD []

/-- The characters that end a line for `str.splitlines` and that `json.dumps` leaves as they are
without `ensure_ascii`. -/
def lineBoundaries : List Char := ['\u0085', '\u2028', '\u2029']

/-- The row stands on one line of the file. -/
def Row.onOneLine (r : Row) : Bool := r.texts.all fun t => t.toList.all (· ∉ lineBoundaries)

/-- The last items of a list, `l[-n:]`. -/
def lastItems {α : Type} (n : ℕ) (l : List α) : List α := l.drop (l.length - n)

/-! ## What the preflight asks the ledger -/

structure Ledger where
  duplicateCompleted : String → Bool
  retryableAttempts : String → ℕ
  /-- The latest statuses of a role and a provider. -/
  recent : String → String → List String

/-- The latest calls of a role and a provider all failed. -/
def Ledger.CircuitOpen (ledger : Ledger) (role provider : String) : Prop :=
  circuitFailureLimit ≤ (ledger.recent role provider).length ∧
    ∀ s ∈ ledger.recent role provider, s = "provider_error"

instance Ledger.decidableCircuitOpen (ledger : Ledger) (role provider : String) :
    Decidable (ledger.CircuitOpen role provider) := inferInstanceAs (Decidable (_ ∧ _))

/-- `_rows`: a row that its own text breaks into several lines is none of them. -/
def readRows (file : List Row) : List Row := file.filter Row.onOneLine

def Row.finished (r : Row) : Bool := r.eventPhase ≠ .started

def Row.of (role provider : String) (r : Row) : Bool :=
  r.permit.roleId = role ∧ r.permit.provider = provider

/-- The answers from the file. -/
def plainLedger (file : List Row) : Ledger where
  duplicateCompleted id := (readRows file).any fun r =>
    r.permit.invocationId = id ∧ r.status = "accepted" ∧ r.finished
  retryableAttempts id := (readRows file).countP fun r =>
    r.permit.invocationId = id ∧ r.finished ∧ r.status ∈ retryableCallStatuses
  recent role provider :=
    (lastItems circuitFailureLimit
      ((readRows file).filter fun r => r.of role provider ∧ r.finished)).map Row.status

/-! ## The index -/

/-- A row of `semantic_keys` for this stream. -/
structure SemanticKey (δ : Type) where
  keyValue : String
  status : String
  roleId : String
  provider : String
  observedAt : String
  eventDigest : δ
  deriving DecidableEq

/-- A row of `llm_latest`. -/
structure Latest where
  status : String
  roleId : String
  totalTokens : ℤ
  costRub : ℚ
  eventPhase : EventPhase
  deriving DecidableEq

/-- The two tables; `semanticKeys` is in the order of its row ids. -/
structure Index (δ : Type) where
  semanticKeys : List (SemanticKey δ)
  llmLatest : Table String Latest

variable {δ : Type} [DecidableEq δ]

def semanticValues (digest : Row → δ) (r : Row) : SemanticKey δ :=
  ⟨r.permit.invocationId, r.status, r.permit.roleId, r.permit.provider, r.completedAt, digest r⟩

def orUnknown (s : String) : String := if s = "" then "unknown" else s

def logicalId (r : Row) : String :=
  if r.correlationId ≠ "" then r.correlationId else r.permit.invocationId

def latestOf (r : Row) : Latest :=
  ⟨orUnknown r.status, orUnknown r.permit.roleId, r.totalTokens, r.costRub, r.eventPhase⟩

/-- A completed event is not replaced by a start. -/
def superseded (latest : Table String Latest) (r : Row) : Bool :=
  (latest.row (logicalId r)).any fun current =>
    current.eventPhase = .completed ∧ r.eventPhase ≠ .completed

def keepLatest (latest : Table String Latest) (r : Row) : Table String Latest :=
  if superseded latest r then latest else latest.replace (logicalId r) (latestOf r)

/-- An `INTEGER` of SQLite has 64 bits. -/
def fitsInteger (n : ℤ) : Bool := -2 ^ 63 ≤ n ∧ n < 2 ^ 63

def Index.add (digest : Row → δ) (index : Index δ) (r : Row) : Index δ where
  semanticKeys :=
    if index.semanticKeys.any fun k =>
        k.keyValue = r.permit.invocationId ∧ k.eventDigest = digest r then index.semanticKeys
    else index.semanticKeys ++ [semanticValues digest r]
  llmLatest := keepLatest index.llmLatest r

/-- `_index_rows` for one row: a number of tokens that does not fit takes the transaction back. -/
def indexRow (digest : Row → δ) (index : Index δ) (r : Row) : Option (Index δ) :=
  if superseded index.llmLatest r ∨ fitsInteger r.totalTokens then some (index.add digest r)
  else none

/-- The answers from the index. -/
def indexedLedger (index : Index δ) : Ledger where
  duplicateCompleted id := index.semanticKeys.any fun k =>
    k.keyValue = id ∧ k.status = "accepted"
  retryableAttempts id := index.semanticKeys.countP fun k =>
    k.keyValue = id ∧ k.status ∈ retryableCallStatuses
  recent role provider :=
    (lastItems circuitFailureLimit
      (index.semanticKeys.filter fun k => k.roleId = role ∧ k.provider = provider)).map
        SemanticKey.status

/-! ## The preflight -/

structure Provider where
  name : String
  modelName : String
  className : String
  configured : Bool
  baseUrl : String
  redirectUrl : String

/-- What an invocation id is the hash of. -/
structure InvocationKey where
  roleId : String
  sourceRef : String
  inputHash : String
  provider : String
  providerClass : String
  model : String
  endpointIdentity : Option EndpointIdentity

/-- What the ledger takes from elsewhere: case, the identity of an endpoint and the hash of an
invocation. -/
structure Environment where
  lower : String → String
  endpointIdentityFromUrl : String → EndpointIdentity
  digest : InvocationKey → String

structure Request where
  roleId : String
  sourceRef : String
  inputHash : String
  provider : Provider
  localOnly : Bool
  localModelAllowlist : List String
  now : String

variable (env : Environment)

def stableId (key : InvocationKey) : String := "llminv_" ++ env.digest key

theorem stableId_ne_empty (key : InvocationKey) : stableId env key ≠ "" := by
  intro h
  have hlist := congrArg String.toList h
  simp [stableId, String.toList_append] at hlist

namespace Request

def providerName (req : Request) : String :=
  env.lower (if req.provider.name = "" then "unknown" else req.provider.name)

def isLocal (req : Request) : Prop := req.localOnly = true ∧ req.providerName env ∈ localProviderNames

instance decidableIsLocal (req : Request) : Decidable (req.isLocal env) :=
  inferInstanceAs (Decidable (_ ∧ _))

/-- The endpoint of a local provider; a redirect that leads elsewhere takes its proof away. -/
def endpoint (req : Request) : Option EndpointIdentity × List String :=
  if req.isLocal env then
    let endpoint := env.endpointIdentityFromUrl req.provider.baseUrl
    if req.provider.redirectUrl = "" then (some endpoint, ["local_endpoint_identity_v1"])
    else
      let redirect := env.endpointIdentityFromUrl req.provider.redirectUrl
      let endpoint' :=
        if redirect.loopbackProven = false ∨
            redirect.normalizedBaseUrl ≠ endpoint.normalizedBaseUrl then
          { endpoint with
            loopbackProven := false
            problems := endpoint.problems ++ ["redirect_endpoint_not_local"] }
        else endpoint
      (some endpoint', ["local_endpoint_identity_v1", "redirect_identity_v1"])
  else (none, [])

def invocationId (req : Request) : String :=
  stableId env ⟨req.roleId, req.sourceRef, req.inputHash, req.providerName env,
    req.provider.className, req.provider.modelName, (req.endpoint env).1⟩

def localModelAllowed (req : Request) : Bool :=
  req.provider.modelName ∈ req.localModelAllowlist ∨
    String.ofList (req.provider.modelName.toList.takeWhile (· ≠ ':')) ∈ req.localModelAllowlist

/-- What a local role asks of its provider and endpoint. -/
def localProblem (req : Request) : Option String :=
  if req.localOnly = true ∧
      req.providerName env ∉ localProviderNames ++ testProviderNames then
    some "local_provider_required"
  else
    match (req.endpoint env).1 with
    | none => none
    | some e =>
        if e.problems.any fun p => "invalid_endpoint".toList.isPrefixOf p.toList then
          some "invalid_endpoint"
        else if e.normalizedBaseUrl = "" then some "local_endpoint_identity_required"
        else if e.loopbackProven = false then some "local_endpoint_required"
        else if req.localModelAllowed = false then some "local_model_not_allowlisted"
        else none

/-- The reason of the refusal, in the order of the checks. -/
def refusal (ledger : Ledger) (req : Request) : Option String :=
  if ledger.duplicateCompleted (req.invocationId env) then some "duplicate_completed"
  else if req.provider.configured = false then some "provider_not_configured"
  else
    match req.localProblem env with
    | some problem => some problem
    | none =>
        if maxRetryableAttempts ≤ ledger.retryableAttempts (req.invocationId env) then
          some "retry_exhausted"
        else if ledger.CircuitOpen req.roleId (req.providerName env) then some "circuit_open"
        else none

def preflightInvocation (ledger : Ledger) (req : Request) : Permit where
  invocationId := req.invocationId env
  roleId := req.roleId
  sourceRef := req.sourceRef
  inputHash := req.inputHash
  provider := req.providerName env
  model := req.provider.modelName
  allowed := (req.refusal env ledger).isNone
  reason := (req.refusal env ledger).getD "allowed"
  createdAt := req.now
  providerClass := req.provider.className
  endpointIdentity := (req.endpoint env).1
  boundaryChecks := (req.endpoint env).2
  identified := stableId_ne_empty env _

end Request

/-! ## The summary -/

/-- What one invocation adds to the summary. -/
structure Contribution where
  status : String
  roleId : String
  totalTokens : ℤ
  costRub : ℚ
  deriving DecidableEq

structure Summary where
  invocations : ℕ
  invocationEvents : ℕ
  byStatus : List (String × ℕ)
  byRole : List (String × ℕ)
  totalTokens : ℤ
  totalCostRub : ℚ
  deriving DecidableEq

/-- `dict(sorted(counts.items()))`. -/
def sortedCounts (labels : List String) : List (String × ℕ) :=
  (sortOn id labels.dedup).map fun label => (label, labels.count label)

def summaryOf (logical : List Contribution) (events : ℕ) : Summary where
  invocations := logical.length
  invocationEvents := events
  byStatus := sortedCounts (logical.map Contribution.status)
  byRole := sortedCounts (logical.map Contribution.roleId)
  totalTokens := (logical.map Contribution.totalTokens).sum
  totalCostRub := roundTo 4 (floatSum (logical.map Contribution.costRub))

def contribution (r : Row) : Contribution :=
  ⟨orUnknown r.status, orUnknown r.permit.roleId, r.totalTokens, r.costRub⟩

/-- A row that belongs to no transport. -/
def Row.uncorrelated (r : Row) : Bool := r.correlationId = ""

/-- The row kept for each correlation id: the first, until a completed one replaces it. -/
def keepTransport (transport : Table String Row) (r : Row) : Table String Row :=
  if r.uncorrelated then transport
  else if transport.row r.correlationId = none ∨ r.eventPhase = .completed then
    transport.upsert r.correlationId r fun _ => r
  else transport

def transportRows (rows : List Row) : Table String Row := rows.foldl keepTransport Table.empty

/-- The calls, and after them the transports. -/
def logicalRows (rows : List Row) : List Row :=
  rows.filter Row.uncorrelated ++ (transportRows rows).toList

def plainSummary (file : List Row) : Summary :=
  let rows := readRows file
  summaryOf ((logicalRows rows).map contribution) rows.length

def Latest.contribution (l : Latest) : Contribution :=
  ⟨l.status, l.roleId, l.totalTokens, l.costRub⟩

/-- `COUNT(DISTINCT event_digest)` over the keys, and the sums over `llm_latest`. -/
def indexedSummary (index : Index δ) : Summary :=
  summaryOf (index.llmLatest.toList.map Latest.contribution)
    (index.semanticKeys.map SemanticKey.eventDigest).dedup.length

/-! ## Two roots with the same calls -/

/-- The file of a root without runtime storage, and the stream and the index of one with it. -/
structure Roots (δ : Type) where
  file : List Row
  active : List Row
  sealed : List (List Row)
  index : Index δ

/-- A call is recorded, and the stream is sealed where it has grown too long. -/
structure Recording where
  row : Row
  sealing : Bool

/-- Where the index refuses the row, the call raises after the row was appended. -/
def Roots.record (digest : Row → δ) (s : Roots δ) (c : Recording) : Roots δ :=
  match indexRow digest s.index c.row with
  | none => { s with file := s.file ++ [c.row], active := s.active ++ [c.row] }
  | some index =>
      { file := s.file ++ [c.row]
        active := if c.sealing then [] else s.active ++ [c.row]
        sealed := if c.sealing then s.sealed ++ [s.active ++ [c.row]] else s.sealed
        index }

def Roots.empty : Roots δ := ⟨[], [], [], ⟨[], Table.empty⟩⟩

/-- Both roots give every request the same permit, and the same summary. -/
structure Roots.Agree (s : Roots δ) : Prop where
  permits : ∀ req : Request, req.preflightInvocation env (plainLedger s.file) =
    req.preflightInvocation env (indexedLedger s.index)
  summary : plainSummary s.file = indexedSummary s.index

end ResearchLab.Invocations
