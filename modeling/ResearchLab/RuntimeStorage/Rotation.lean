import Mathlib
import ResearchLab.Foundation.Json
import ResearchLab.Foundation.Lines
import ResearchLab.Foundation.Rounding
import ResearchLab.Foundation.Sorting
import ResearchLab.Foundation.Table

/-!
# The runtime streams of a root

Every stream has an active file, segments that were sealed from it, and a tail file of its last
records; one database indexes the rows of all of them. What the environment answers to a call
(locks, writes, the database, the archive) is part of the call.
-/
namespace ResearchLab.RuntimeStorage
open Foundation

abbrev Bytes := List UInt8

/-- `bytes.splitlines(keepends=True)`. -/
def splitBytes (data : Bytes) : List Bytes :=
  splitLines (fun b => b = 10 ∨ b = 13) (fun b c => b = 13 ∧ c = 10) data

/-- A line without its break. -/
def bareLine (line : Bytes) : Bytes := line.takeWhile fun b => ¬(b = 10 ∨ b = 13)

structure RuntimeStreamPolicy where
  streamId : String
  relativePath : String
  payloadSchema : String
  maxActiveBytes : ℕ
  tailRecords : ℕ
  maxActive_pos : 0 < maxActiveBytes
  tail_pos : 0 < tailRecords

def RuntimeStreamPolicy.isStdout (p : RuntimeStreamPolicy) : Bool :=
  p.payloadSchema = "RuntimeStdoutLine.v1"

structure RuntimeStorageCapability where
  streams : List RuntimeStreamPolicy
  ids_nodup : (streams.map RuntimeStreamPolicy.streamId).Nodup

/-- `_policy_for`. -/
def RuntimeStorageCapability.policyFor (cap : RuntimeStorageCapability) (path : String) :
    Option RuntimeStreamPolicy := cap.streams.find? fun p => p.relativePath = path

/-- What `maybe_runtime_storage_capability` finds. -/
inductive CapabilityState
  | absent
  | invalid
  | ready (cap : RuntimeStorageCapability)

/-! ## The semantic index -/

/-- The members of a JSON object. -/
abbrev Row (φ : Type) := List (String × Json φ)

/-- What the index takes from Python; `none` where it raises. An integer is refused too where it
does not fit SQLite's 64 bits, and a digest where the text of a row has no UTF-8. -/
structure Python (φ δ : Type) where
  loads : Bytes → Option (Json φ)
  isZero : φ → Bool
  str : Json φ → String
  int : Json φ → Option ℤ
  float : Json φ → Option ℚ
  digest : Row φ → Option δ

structure SemanticKey (δ : Type) where
  keyType : String
  keyValue : String
  status : String
  roleId : String
  provider : String
  category : String
  observedAt : String
  eventDigest : δ
  deriving DecidableEq

structure Latest where
  status : String
  roleId : String
  totalTokens : ℤ
  costRub : ℚ
  eventPhase : String
  deriving DecidableEq

/-- The rows of `semantic_keys` by their stream, in the order of their row ids, and `llm_latest`. -/
structure Index (δ : Type) where
  semanticKeys : String → List (SemanticKey δ)
  llmLatest : Table String Latest

def Index.empty {δ : Type} : Index δ := ⟨fun _ => [], Table.empty⟩

variable {φ δ : Type} [DecidableEq δ] (py : Python φ δ)

def truthy : Json φ → Bool
  | .null => false
  | .bool b => b
  | .int n => n ≠ 0
  | .float x => !py.isZero x
  | .str s => s ≠ ""
  | .arr items => !items.isEmpty
  | .obj members => !members.isEmpty

/-- `row.get(key)`. -/
def Row.value (row : Row φ) (key : String) : Json φ := (row.lookup key).getD .null

/-- `str(row.get(key) or row.get(key') or ... or default)`. -/
def Row.text (row : Row φ) (keys : List String) (default : String) : String :=
  (((keys.map row.value).find? (truthy py)).map py.str).getD default

def Row.integer (row : Row φ) (key : String) : Option ℤ :=
  if truthy py (row.value key) then py.int (row.value key) else some 0

def Row.number (row : Row φ) (key : String) : Option ℚ :=
  if truthy py (row.value key) then py.float (row.value key) else some 0

def semanticKeyTypes : List String := ["invocation_id", "lineage_link_id", "scanner_event_id"]

/-- `_semantic_values`. -/
def semanticValues (row : Row φ) : Option (List (SemanticKey δ)) :=
  (py.digest row).map fun digest => semanticKeyTypes.filterMap fun key =>
    if row.text py [key] "" = "" then none
    else some
      { keyType := key
        keyValue := row.text py [key] ""
        status := row.text py ["status"] ""
        roleId := row.text py ["role_id"] ""
        provider := row.text py ["provider"] ""
        category := row.text py ["source"] ""
        observedAt := row.text py ["completed_at", "linked_at", "timestamp", "created_at"] ""
        eventDigest := digest }

/-- `INSERT OR IGNORE`. -/
def insertOrIgnore (keys : List (SemanticKey δ)) (k : SemanticKey δ) : List (SemanticKey δ) :=
  if keys.any fun k' =>
      k'.keyType = k.keyType ∧ k'.keyValue = k.keyValue ∧ k'.eventDigest = k.eventDigest then keys
  else keys ++ [k]

def Row.logicalId (row : Row φ) : String := row.text py ["correlation_id", "invocation_id"] ""

/-- `INSERT OR REPLACE`, but no other phase replaces a completed one. -/
def keepLatest (latest : Table String Latest) (row : Row φ) : Option (Table String Latest) :=
  if row.logicalId py = "" then some latest
  else if (latest.row (row.logicalId py)).any (fun current => current.eventPhase = "completed") ∧
      row.text py ["event_phase"] "completed" ≠ "completed" then some latest
  else do
    let totalTokens ← row.integer py "total_tokens"
    let costRub ← row.number py "cost_rub"
    let new : Latest := ⟨row.text py ["status"] "unknown", row.text py ["role_id"] "unknown",
      totalTokens, costRub, row.text py ["event_phase"] "completed"⟩
    some (latest.replace (row.logicalId py) new)

def latestOf (p : RuntimeStreamPolicy) (rows : List (Row φ)) (latest : Table String Latest) :
    Option (Table String Latest) :=
  if p.streamId = "llm.invocations" then rows.foldlM (keepLatest py) latest else some latest

/-- `_index_rows`: one transaction, which is not begun where no row has a key. -/
def indexRows (connected : Bool) (p : RuntimeStreamPolicy) (rows : List (Row φ))
    (index : Index δ) : Option (Index δ) := do
  let values ← rows.mapM (semanticValues py)
  if values.flatten = [] then some index
  else if connected = false then none
  else
    let latest ← latestOf py p rows index.llmLatest
    some
      { semanticKeys := Function.update index.semanticKeys p.streamId
          (values.flatten.foldl insertOrIgnore (index.semanticKeys p.streamId))
        llmLatest := latest }

def asRow : Json φ → Option (Row φ)
  | .obj members => some members
  | _ => none

/-- `_decode_json_lines`. -/
def decodeJsonLines (lines : List Bytes) : List (Row φ) :=
  lines.filterMap fun line => (py.loads line).bind asRow

/-! ## Files -/

inductive Place
  | sealed
  | claimed
  | archived
  deriving DecidableEq, Repr

/-- A segment under its random name, and where it is: pending, claimed by an archiver, or only in
the archive. -/
structure Segment where
  name : ℕ
  bytes : Bytes
  place : Place
  deriving DecidableEq

structure Root (δ : Type) where
  files : String → Option Bytes
  segments : String → List Segment
  tails : String → Option Bytes
  index : Index δ

namespace Root

/-- Bytes at the end of a file, which is created where it is absent. -/
def write (root : Root δ) (path : String) (data : Bytes) : Root δ :=
  { root with files := Function.update root.files path (some ((root.files path).getD [] ++ data)) }

/-- The active file becomes a pending segment. -/
def sealFile (root : Root δ) (p : RuntimeStreamPolicy) (path : String) (name : ℕ) : Root δ :=
  { root with
    files := Function.update root.files path none
    segments := Function.update root.segments p.streamId
      (root.segments p.streamId ++ [⟨name, (root.files path).getD [], .sealed⟩]) }

/-- `_append_tail`. -/
def appendTail (root : Root δ) (p : RuntimeStreamPolicy) (lines : List Bytes) : Root δ :=
  if p.isStdout then root
  else
    let existing := ((root.tails p.streamId).map splitBytes).getD []
    { root with
      tails := Function.update root.tails p.streamId
        (some ((existing ++ lines).rtake p.tailRecords).flatten) }

/-- The pending segments of a stream in the order of their names. -/
def pending (root : Root δ) (p : RuntimeStreamPolicy) : List Segment :=
  sortOn Segment.name ((root.segments p.streamId).filter fun s => s.place = .sealed)

end Root

/-! ## Archiving -/

/-- How an old claim is met. -/
inductive Recovery
  | young
  | failed
  | recovered
  deriving DecidableEq, Repr

/-- How a pending segment is archived: not claimed; archived; given back; claimed for good. -/
inductive Archival
  | unclaimed
  | archived
  | released
  | stuck
  deriving DecidableEq, Repr

/-- What one call of `archive_pending_segments` meets. -/
structure Maintenance where
  catalogOpened : Bool
  recovery : String → ℕ → Recovery
  archival : String → ℕ → Archival
  budgetReady : Bool
  statusWritten : Bool

namespace Maintenance

variable (m : Maintenance)

/-- An old claim is given back first. -/
def recover (stream : String) (s : Segment) : Segment :=
  if s.place = .claimed ∧ m.recovery stream s.name = .recovered then { s with place := .sealed }
  else s

def archive (stream : String) (s : Segment) : Segment :=
  if s.place = .sealed then
    match m.archival stream s.name with
    | .unclaimed => s
    | .archived => { s with place := .archived }
    | .released => s
    | .stuck => { s with place := .claimed }
  else s

/-- A claim that could not be recovered, or a segment that could not be archived. -/
def problem (stream : String) (s : Segment) : Bool :=
  (s.place = .claimed ∧ m.recovery stream s.name = .failed) ∨
    ((m.recover stream s).place = .sealed ∧ m.archival stream s.name ≠ .archived)

/-- The call returns a state, and the state is `ready`. -/
def ready (streams : List String) (root : Root δ) : Bool :=
  m.catalogOpened && m.budgetReady && m.statusWritten &&
    streams.all fun stream => (root.segments stream).all fun s => !m.problem stream s

/-- `archive_pending_segments` of some streams. -/
def archivePendingSegments (streams : List String) (root : Root δ) : Root δ :=
  if m.catalogOpened then
    { root with
      segments := fun stream =>
        if stream ∈ streams then
          (root.segments stream).map fun s => m.archive stream (m.recover stream s)
        else root.segments stream }
  else root

end Maintenance

/-! ## Appending -/

/-- What one call of `append_runtime_lines` meets. A write may stop after some of the bytes. -/
structure Answers where
  locked : Bool
  regular : Bool
  opened : Bool
  stopped : Option ℕ
  synced : Bool
  connected : Bool
  tailWritten : Bool
  measured : Bool
  renamed : Bool
  name : ℕ
  maintenance : Maintenance

inductive AppendError
  | capability
  | lock
  | unsafePath
  | opening
  | writing
  | syncing
  | indexing
  | tail
  | sealing
  | archival
  deriving DecidableEq, Repr

/-- What reaches the file. -/
def Answers.written (a : Answers) (lines : List Bytes) : Bytes :=
  match a.stopped with
  | some n => lines.flatten.take n
  | none => lines.flatten

/-- The bytes are appended to a file that nothing coordinates. -/
def appendPlain (a : Answers) (path : String) (lines : List Bytes) (root : Root δ) :
    Root δ × Option AppendError :=
  if a.opened = false then (root, some .opening)
  else (root.write path (a.written lines), if a.stopped.isSome then some .writing else none)

/-- The oversized file is sealed, and the archive is called. -/
def sealActive (a : Answers) (p : RuntimeStreamPolicy) (path : String) (root : Root δ) :
    Root δ × Option AppendError :=
  if a.measured = false then (root, some .sealing)
  else if ((root.files path).getD []).length < p.maxActiveBytes then (root, none)
  else if a.renamed = false then (root, some .sealing)
  else
    (a.maintenance.archivePendingSegments [p.streamId] (root.sealFile p path a.name),
      if a.maintenance.ready [p.streamId] (root.sealFile p path a.name) then none else some .archival)

/-- What follows the write: the index, the tail and the sealing. -/
def settleLines (a : Answers) (p : RuntimeStreamPolicy) (path : String) (lines : List Bytes)
    (root : Root δ) : Root δ × Option AppendError :=
  match indexRows py a.connected p (decodeJsonLines py lines) root.index with
  | none => (root, some .indexing)
  | some index =>
      if p.isStdout = false ∧ a.tailWritten = false then ({ root with index }, some .tail)
      else sealActive a p path (({ root with index } : Root δ).appendTail p lines)

def appendCoordinated (a : Answers) (p : RuntimeStreamPolicy) (path : String)
    (lines : List Bytes) (root : Root δ) : Root δ × Option AppendError :=
  if a.locked = false then (root, some .lock)
  else if a.regular = false then (root, some .unsafePath)
  else if a.opened = false then (root, some .opening)
  else if a.stopped.isSome then (root.write path (a.written lines), some .writing)
  else if a.synced = false then (root.write path (a.written lines), some .syncing)
  else settleLines py a p path lines (root.write path (a.written lines))

def appendRuntimeLines (a : Answers) (state : CapabilityState) (path : String)
    (lines : List Bytes) (root : Root δ) : Root δ × Option AppendError :=
  if lines = [] then (root, none)
  else
    match state with
    | .invalid => (root, some .capability)
    | .absent => appendPlain a path lines root
    | .ready cap =>
        match cap.policyFor path with
        | none => appendPlain a path lines root
        | some p => appendCoordinated py a p path lines root

end ResearchLab.RuntimeStorage
