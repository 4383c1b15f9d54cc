import Mathlib
import ResearchLab.Foundation.Checks
import ResearchLab.Foundation.JsonLoads
import ResearchLab.Foundation.Queries

/-!
# The project brain store

The event log is a text, one JSON line an event; the index is two tables of records and causal
links. A call appends its line and then writes its row of the index. A crash may fall between
the two, or leave a prefix of the line.
-/
namespace ResearchLab.ProjectBrain

open Foundation

/-- A JSON value; a float would be its text. -/
abbrev Value := Json (List Char)

/-- A dictionary of texts, in the order of its keys. -/
structure TextDict where
  entries : List (String × String)
  ascending : (entries.map Prod.fst).Pairwise (· < ·)

def TextDict.empty : TextDict := ⟨[], List.Pairwise.nil⟩

def TextDict.json (d : TextDict) : Value := .obj (d.entries.map fun e => (e.1, .str e.2))

def texts (l : List String) : Value := .arr (l.map .str)

structure MemoryRecord where
  recordId : String
  contour : String
  entity : String
  type : String
  source : String
  evidenceRefs : List String
  repository : String
  branch : String
  commitSha : String
  contentHash : String
  createdAt : String
  verifiedAt : String
  freshness : String
  confidence : String
  authority : String
  supersedes : String
  summary : String
  projectNodeIds : List String
  sourceHashes : TextDict
  causalChainId : String
  causalStage : String
  taskId : String
  authorityId : String
  schema : String

structure CausalLink where
  linkId : String
  chainId : String
  sourceRecordId : String
  targetRecordId : String
  relation : String
  evidenceRefs : List String
  createdAt : String

/-- `MemoryRecord.to_dict`, with the keys in the order in which they are written. -/
def MemoryRecord.toDict (r : MemoryRecord) : Value := .obj [
  ("authority", .str r.authority), ("authority_id", .str r.authorityId),
  ("branch", .str r.branch), ("causal_chain_id", .str r.causalChainId),
  ("causal_stage", .str r.causalStage), ("commit_sha", .str r.commitSha),
  ("confidence", .str r.confidence), ("content_hash", .str r.contentHash),
  ("contour", .str r.contour), ("created_at", .str r.createdAt), ("entity", .str r.entity),
  ("evidence_refs", texts r.evidenceRefs), ("freshness", .str r.freshness),
  ("project_node_ids", texts r.projectNodeIds), ("record_id", .str r.recordId),
  ("repository", .str r.repository), ("schema", .str r.schema), ("source", .str r.source),
  ("source_hashes", r.sourceHashes.json), ("summary", .str r.summary),
  ("supersedes", .str r.supersedes), ("task_id", .str r.taskId), ("type", .str r.type),
  ("verified_at", .str r.verifiedAt)]

/-! ## Reading a row -/

/-- `row[key]` where a text is expected. -/
def textAt (row : Value) (key : String) : Except String String :=
  match (row.member? key).bind Json.text? with
  | some s => .ok s
  | none => .error key

def textsAt (row : Value) (key : String) : Except String (List String) :=
  match row.member? key with
  | some (.arr vs) =>
      match vs.mapM Json.text? with
      | some l => .ok l
      | none => .error key
  | _ => .error key

def textDictAt (row : Value) (key : String) : Except String TextDict :=
  match row.member? key with
  | some (.obj ms) =>
      match ms.mapM fun m => m.2.text?.map (m.1, ·) with
      | some entries =>
          if h : (entries.map Prod.fst).Pairwise (· < ·) then .ok ⟨entries, h⟩ else .error key
      | none => .error key
  | _ => .error key

/-- `MemoryRecord(**dict(value))`. -/
def MemoryRecord.ofDict (v : Value) : Except String MemoryRecord := do
  return {
    recordId := ← textAt v "record_id"
    contour := ← textAt v "contour"
    entity := ← textAt v "entity"
    type := ← textAt v "type"
    source := ← textAt v "source"
    evidenceRefs := ← textsAt v "evidence_refs"
    repository := ← textAt v "repository"
    branch := ← textAt v "branch"
    commitSha := ← textAt v "commit_sha"
    contentHash := ← textAt v "content_hash"
    createdAt := ← textAt v "created_at"
    verifiedAt := ← textAt v "verified_at"
    freshness := ← textAt v "freshness"
    confidence := ← textAt v "confidence"
    authority := ← textAt v "authority"
    supersedes := ← textAt v "supersedes"
    summary := ← textAt v "summary"
    projectNodeIds := ← textsAt v "project_node_ids"
    sourceHashes := ← textDictAt v "source_hashes"
    causalChainId := ← textAt v "causal_chain_id"
    causalStage := ← textAt v "causal_stage"
    taskId := ← textAt v "task_id"
    authorityId := ← textAt v "authority_id"
    schema := ← textAt v "schema" }

def CausalLink.ofRow (row : Value) : Except String CausalLink := do
  return {
    linkId := ← textAt row "link_id"
    chainId := ← textAt row "chain_id"
    sourceRecordId := ← textAt row "source_record_id"
    targetRecordId := ← textAt row "target_record_id"
    relation := ← textAt row "relation"
    evidenceRefs := ← textsAt row "evidence_refs"
    createdAt := ← textAt row "created_at" }

/-! ## Events -/

inductive Event
  | record (r : MemoryRecord)
  | causalLink (l : CausalLink)

def Event.row : Event → Value
  | record r => .obj [("event", .str "record"), ("event_schema", .str "ProjectBrainEvent.v1"),
      ("record", r.toDict)]
  | causalLink l => .obj [("chain_id", .str l.chainId), ("created_at", .str l.createdAt),
      ("event", .str "causal_link"), ("event_schema", .str "ProjectBrainEvent.v1"),
      ("evidence_refs", texts l.evidenceRefs), ("link_id", .str l.linkId),
      ("relation", .str l.relation), ("source_record_id", .str l.sourceRecordId),
      ("target_record_id", .str l.targetRecordId)]

/-- `json.dumps(row, ensure_ascii=False, sort_keys=True)`. -/
def readable : Json.Format (List Char) := ⟨[',', ' '], [':', ' '], false, true, id⟩

def Event.text (e : Event) : List Char := e.row.dumps readable

def Event.line (e : Event) : List Char := e.text ++ ['\n']

/-! ## The index -/

structure RecordRow where
  recordId : String
  contour : String
  entity : String
  type : String
  commitSha : String
  verifiedAt : String
  freshness : String
  supersedes : String
  payload : List Char

structure LinkRow where
  linkId : String
  chainId : String
  sourceRecordId : String
  targetRecordId : String
  relation : String
  evidenceRefs : List Char
  createdAt : String

def MemoryRecord.indexRow (r : MemoryRecord) : RecordRow :=
  ⟨r.recordId, r.contour, r.entity, r.type, r.commitSha, r.verifiedAt, r.freshness,
    r.supersedes, r.toDict.dumps readable⟩

def CausalLink.indexRow (l : CausalLink) : LinkRow :=
  ⟨l.linkId, l.chainId, l.sourceRecordId, l.targetRecordId, l.relation,
    (texts l.evidenceRefs).dumps (Json.plain id), l.createdAt⟩

structure Index where
  records : Table String RecordRow
  links : Table String LinkRow

def Index.empty : Index := ⟨.empty, .empty⟩

def Index.upsertRecord (index : Index) (r : MemoryRecord) : Index :=
  { index with records := index.records.insert r.recordId r.indexRow }

def Index.insertLink (index : Index) (l : CausalLink) : Index :=
  { index with links := index.links.insert l.linkId l.indexRow }

def Index.recordExists (index : Index) (recordId : String) : Bool :=
  (index.records.row recordId).isSome

def Index.add (index : Index) : Event → Index
  | .record r => index.upsertRecord r
  | .causalLink l => index.insertLink l

/-- `json.loads`. -/
def loads (text : List Char) : Except String Value :=
  match Json.loads id text with
  | some v => .ok v
  | none => .error "JSONDecodeError"

/-- `ORDER BY verified_at DESC, record_id`. -/
def RecordRow.order (r : RecordRow) : Lex (Stringᵒᵈ × String) :=
  toLex (OrderDual.toDual r.verifiedAt, r.recordId)

/-- `ORDER BY created_at, link_id`. -/
def LinkRow.order (r : LinkRow) : Lex (String × String) := toLex (r.createdAt, r.linkId)

def Index.listRecords (index : Index) (contours : List String) : Except String (List Value) :=
  (sortOn RecordRow.order (index.records.toList.filter fun r =>
    contours.isEmpty || r.contour ∈ contours)).mapM fun r => loads r.payload

def LinkRow.view (r : LinkRow) : Except String Value := do
  let refs ← loads r.evidenceRefs
  return .obj [("link_id", .str r.linkId), ("chain_id", .str r.chainId),
    ("source_record_id", .str r.sourceRecordId), ("target_record_id", .str r.targetRecordId),
    ("relation", .str r.relation), ("evidence_refs", refs), ("created_at", .str r.createdAt)]

def Index.causalLinks (index : Index) (chainId : String) : Except String (List Value) :=
  (sortOn LinkRow.order (index.links.toList.filter fun r =>
    chainId = "" || r.chainId = chainId)).mapM LinkRow.view

/-! ## Appending -/

/-- The hash, and what `reject_sensitive_data` raises for a value. -/
structure Environment where
  sha256 : String → String
  rejectSensitiveData : Value → Option String

def recordTypes : List String := ["observed", "derived", "hypothesis", "decision",
  "implementation", "verification", "blocked", "residual_risk", "superseded"]

def causalStages : List String := ["symptom", "timeline", "observation", "excluded_hypothesis",
  "root_cause", "decision", "change", "verification", "residual_risk"]

def causalRelations : List String := ["precedes", "supports", "excludes", "caused", "motivated",
  "fixed_by", "verified_by", "leaves_risk"]

def memorySchema : String := "TradingProjectMemoryRecord.v1"

/-- The arguments of `append_record`. -/
structure RecordArgs where
  contour : String
  entity : String
  recordType : String
  source : String
  evidenceRefs : List String
  repository : String
  branch : String
  commitSha : String
  authority : String
  summary : String
  confidence : String := "verified"
  supersedes : String := ""
  projectNodeIds : List String := []
  sourceHashes : TextDict := .empty
  causalChainId : String := ""
  causalStage : String := ""
  taskId : String := ""
  authorityId : String := ""
  verifiedAt : Option String := none

/-- The arguments of `append_causal_link`. -/
structure LinkArgs where
  chainId : String
  sourceRecordId : String
  targetRecordId : String
  relation : String
  evidenceRefs : List String

namespace Environment

variable (env : Environment)

def contentSha256 (v : Value) : String := env.sha256 (String.ofList (v.dumps (Json.canonical id)))

def stableId (kind : String) (identity : List String) : String :=
  kind ++ ":" ++ String.ofList ((env.contentSha256 (texts identity)).toList.take 24)

/-- `reject_sensitive_data`. -/
def reject (v : Value) : Except String Unit :=
  match env.rejectSensitiveData v with
  | some message => .error message
  | none => .ok ()

end Environment

/-- `sorted(set(refs))`. -/
def sortedSet (refs : List String) : List String := sortOn id refs.dedup

def RecordArgs.refs (args : RecordArgs) : List String :=
  sortedSet (args.evidenceRefs.filter (· ≠ ""))

/-- What the identity of a record is made of. -/
def RecordArgs.payload (args : RecordArgs) : Value := .obj [
  ("authority", .str args.authority), ("authority_id", .str args.authorityId),
  ("branch", .str args.branch), ("causal_chain_id", .str args.causalChainId),
  ("causal_stage", .str args.causalStage), ("commit_sha", .str args.commitSha),
  ("contour", .str args.contour), ("entity", .str args.entity),
  ("evidence_refs", texts args.refs), ("project_node_ids", texts args.projectNodeIds),
  ("repository", .str args.repository), ("source", .str args.source),
  ("source_hashes", args.sourceHashes.json), ("summary", .str args.summary),
  ("supersedes", .str args.supersedes), ("task_id", .str args.taskId),
  ("type", .str args.recordType)]

def RecordArgs.record (env : Environment) (args : RecordArgs) (utcNow : String) :
    MemoryRecord where
  recordId := env.stableId "memory" [args.repository, env.contentSha256 args.payload]
  contour := args.contour
  entity := args.entity
  type := args.recordType
  source := args.source
  evidenceRefs := args.refs
  repository := args.repository
  branch := args.branch
  commitSha := args.commitSha
  contentHash := env.contentSha256 args.payload
  createdAt := args.verifiedAt.getD utcNow
  verifiedAt := args.verifiedAt.getD utcNow
  freshness := "current"
  confidence := args.confidence
  authority := args.authority
  supersedes := args.supersedes
  summary := args.summary
  projectNodeIds := args.projectNodeIds
  sourceHashes := args.sourceHashes
  causalChainId := args.causalChainId
  causalStage := args.causalStage
  taskId := args.taskId
  authorityId := args.authorityId
  schema := memorySchema

def LinkArgs.refs (args : LinkArgs) : List String := sortedSet args.evidenceRefs

def LinkArgs.link (env : Environment) (args : LinkArgs) (utcNow : String) : CausalLink where
  linkId := env.stableId "causal"
    [args.chainId, args.sourceRecordId, args.targetRecordId, args.relation]
  chainId := args.chainId
  sourceRecordId := args.sourceRecordId
  targetRecordId := args.targetRecordId
  relation := args.relation
  evidenceRefs := args.refs
  createdAt := utcNow

/-- The log and the index. -/
structure Brain where
  log : List Char
  index : Index

/-- Where a call ends: after the index, before it, or with the first `n` characters of its
line. -/
inductive Outcome
  | done
  | unindexed
  | torn (n : ℕ)

/-- `_append_event_unlocked` and the write of the index behind it. -/
def Brain.write (b : Brain) (e : Event) : Outcome → Brain
  | .done => ⟨b.log ++ e.line, b.index.add e⟩
  | .unindexed => ⟨b.log ++ e.line, b.index⟩
  | .torn n => ⟨b.log ++ e.line.take n, b.index⟩

/-- The checks of `append_record` on its arguments. -/
def RecordArgs.check (env : Environment) (args : RecordArgs) : Except String Unit :=
  if args.recordType ∉ recordTypes then
    .error ("unsupported memory record type: " ++ args.recordType)
  else if args.causalStage ≠ "" ∧ args.causalStage ∉ causalStages then
    .error ("unsupported causal stage: " ++ args.causalStage)
  else if args.causalStage = "root_cause" ∧ args.recordType = "hypothesis" then
    .error "a hypothesis cannot be recorded as root cause"
  else if args.causalStage = "root_cause" ∧ args.refs = [] then
    .error "root cause requires evidence references"
  else env.reject args.payload

/-- The checks of `append_causal_link`, on its arguments and on its event. -/
def LinkArgs.check (env : Environment) (args : LinkArgs) (utcNow : String) :
    Except String Unit :=
  if args.relation ∉ causalRelations then
    .error ("unsupported causal relation: " ++ args.relation)
  else if args.refs = [] then .error "causal links require evidence"
  else env.reject (Event.causalLink (args.link env utcNow)).row

inductive Request
  | appendRecord (args : RecordArgs)
  | appendCausalLink (args : LinkArgs)

/-- The event a call makes of its arguments, when it does not raise. -/
def Request.event (env : Environment) (utcNow : String) : Request → Except String Event
  | .appendRecord args => do
      args.check env
      return .record (args.record env utcNow)
  | .appendCausalLink args => do
      args.check env utcNow
      return .causalLink (args.link env utcNow)

/-- The event a call appends: a record that the index has already is not appended again. -/
def Brain.pending? (env : Environment) (b : Brain) (request : Request) (utcNow : String) :
    Option Event :=
  match request.event env utcNow with
  | .ok (.record r) => if b.index.recordExists r.recordId then none else some (.record r)
  | .ok (.causalLink l) => some (.causalLink l)
  | .error _ => none

/-! ## Rebuilding -/

/-- `_index_event`. -/
def Index.indexEvent (env : Environment) (index : Index) (row : Value) : Except String Index := do
  env.reject row
  match (row.member? "event").bind Json.text? with
  | some "record" =>
      match row.member? "record" with
      | some (.obj ms) =>
          let r ← MemoryRecord.ofDict (.obj ms)
          return index.upsertRecord r
      | _ => .error "Project Brain memory event is malformed"
  | some "causal_link" =>
      let l ← CausalLink.ofRow row
      return index.insertLink l
  | _ => .error "unsupported Project Brain memory event"

/-- `not line.strip()`. -/
def isBlankLine (line : List Char) : Bool := line.all isSpace

def Index.indexLine (env : Environment) (index : Index) (line : List Char) :
    Except String Index :=
  if isBlankLine line then .ok index
  else do
    let row ← loads line
    index.indexEvent env row

/-- `rebuild_index` without a graph and archived events. -/
def rebuildIndex (env : Environment) (log : List Char) : Except String Index :=
  (splitlines log).foldlM (Index.indexLine env) .empty

end ResearchLab.ProjectBrain
