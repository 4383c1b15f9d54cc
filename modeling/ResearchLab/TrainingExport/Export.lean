import Mathlib
import ResearchLab.Foundation.Sorting
import ResearchLab.TrainingExport.Order

/-!
# The training export

One call of the export: the overlay of the outcomes that the current generation holds, the
selection of the signals, the two digests that are stored beside the rows and decide whether the
next call is skipped, and the two files.
-/
namespace ResearchLab.TrainingExport
open Foundation Json PaperSignals

variable (py : Python)

/-! ## What a call loads -/

/-- The signals of the log, the documents by their keys, and the view of the trades. -/
structure Sources where
  signals : List PaperActionSignal
  cards : String → Option Dict
  trades : String → Option Dict
  tradeGeneration : Dict
  advice : String → Option Dict
  policies : String → Option Dict
  outcomeReviews : String → List Dict
  /-- The loader keeps the latest version of every signal. -/
  distinct : (signals.map (·.signalId)).Nodup

namespace Sources

variable (s : Sources)

def card (sig : PaperActionSignal) : Dict := (s.cards sig.signalId).getD []

def trade (sig : PaperActionSignal) : Dict := (s.trades sig.signalId).getD []

def adviceOf (sig : PaperActionSignal) : Dict := (s.advice sig.featurePacketId).getD []

def policy (sig : PaperActionSignal) : Dict := (s.policies sig.signalId).getD []

def authorityDatabaseExists : Bool := (field s.tradeGeneration "authority_database_exists").truthy

/-- The documents of a signal, with the review that was matched to it. -/
def refs (review : Dict) (sig : PaperActionSignal) : Refs :=
  ⟨s.card sig, s.trade sig, s.adviceOf sig, s.policy sig, review⟩

end Sources

/-! ## Outcomes of the current generation -/

/-- The items of a list that may be absent. -/
def listOr (v : Value) : List Value :=
  match v with
  | .arr items => items
  | _ => []

/-- The projection whose items name the signal; the last one wins. -/
def projectionOf (view : Dict) (signalId : String) : Option Dict :=
  (((listOr (field view "items")).filterMap fun item =>
      match item with
      | .obj members => some members
      | _ => none).reverse.find? fun item => text py item "source_signal_id" = signalId).filter
    fun _ => signalId ≠ ""

/-- The conditions on the view under which its outcomes replace those of the log. -/
def isCurrentV2 (view : Dict) (subjectGenerationIds : List String) : Bool :=
  (field view "authority_database_exists").truthy && (field view "current").isTrue &&
    (field view "display_only").isFalse &&
    decide (text py view "generation_status" = "completed") &&
    (field view "paper_only").isTrue && (field view "execution_allowed").isFalse &&
    decide (text py view "paper_generation_run_id" ≠ "") &&
    decide (text py view "account_generation_id" ≠ "") && !subjectGenerationIds.isEmpty

/-- The trade of a signal is bound to the current generation. -/
def isBoundTrade (view : Dict) (subjectGenerationIds : List String) (signalId : String)
    (trade : Dict) : Bool :=
  let runId := text py trade "paper_generation_run_id"
  let subjectGenerationId := text py trade "paper_subject_generation_id"
  let terminalEvent := text py trade "terminal_lifecycle_event_id"
  decide (runId ≠ "") && decide (runId = text py view "paper_generation_run_id") &&
    decide (subjectGenerationId ≠ "") && decide (subjectGenerationId ∈ subjectGenerationIds) &&
    decide (text py trade "account_generation_id" = text py view "account_generation_id") &&
    decide (terminalEvent ≠ "") && (field trade "paper_only").isTrue &&
    (field trade "execution_allowed").isFalse &&
    match projectionOf py view signalId with
    | none => false
    | some projection =>
        decide (text py projection "paper_generation_run_id" = runId) &&
          decide (text py projection "paper_subject_generation_id" = subjectGenerationId) &&
          decide (text py projection "account_generation_id" =
            text py view "account_generation_id") &&
          decide (text py projection "terminal_lifecycle_event_id" = terminalEvent)

/-- The signal with the outcome of its trade, or nothing where the trade is not bound. -/
def projectOutcome (s : Sources) (subjectGenerationIds : List String) (sig : PaperActionSignal) :
    Except String (Option PaperActionSignal) :=
  let trade := s.trade sig
  let signalStatus := text py trade "signal_status"
  if signalStatus ∈ terminalStatuses ∧
      isBoundTrade py s.tradeGeneration subjectGenerationIds sig.signalId trade = true then do
    let outcome ← Json.toDict (field trade "outcome")
    let review ← Json.toDict (field trade "review")
    return some { sig with status := signalStatus, outcome := outcome, review := review }
  else return none

/-- `_project_current_v2_outcomes`. -/
def projectCurrentV2Outcomes (s : Sources) : Except String (List PaperActionSignal) :=
  let subjectGenerationIds := ((listOr (field s.tradeGeneration "paper_subject_generation_ids")).map
    (textOr py.repr)).filter (· ≠ "")
  if isCurrentV2 py s.tradeGeneration subjectGenerationIds then do
    let projected ← s.signals.mapM (projectOutcome py s subjectGenerationIds)
    return projected.filterMap id
  else return s.signals

/-! ## Selection -/

def isTerminal (sig : PaperActionSignal) : Bool := decide (sig.status ∈ terminalStatuses)

def isMarketSignal (sig : PaperActionSignal) : Bool :=
  isMarketOutcome py (setKey "diagnosis" (field sig.review "diagnosis") sig.outcome)

/-- With an authority database the trade must name its terminal event. -/
def isBound (s : Sources) (sig : PaperActionSignal) : Bool :=
  !s.authorityDatabaseExists || (field (s.trade sig) "terminal_lifecycle_event_id").truthy

/-! ## Reviews -/

/-- `outcome_review_source_binding`. -/
def outcomeReviewSourceBinding (row : Dict) : List (String × String) :=
  let sourceContent := row.filter fun m =>
    !("outcome_review".toList.isPrefixOf m.1.toList) &&
      !("outcome_learning".toList.isPrefixOf m.1.toList)
  [("paper_generation_run_id", text py row "paper_generation_run_id"),
    ("terminal_lifecycle_event_id", text py row "terminal_lifecycle_event_id"),
    ("source_content_sha256", py.evidenceContentHash sourceContent)]

/-- `review.get("source_binding") == expected`. -/
def isBoundTo (expected : List (String × String)) (review : Dict) : Bool :=
  let binding := membersOr (field review "source_binding")
  decide (binding.length = expected.length) && expected.all fun e =>
    match field binding e.1 with
    | .str found => decide (found = e.2)
    | _ => false

/-- `_matching_outcome_review`: the first of the latest accepted reviews. -/
def matchingOutcomeReview (requireSourceBinding : Bool) (row : Dict) (candidates : List Dict) :
    Option Dict :=
  let accepted := candidates.filter fun review => (field review "accepted").isTrue
  let matched :=
    if requireSourceBinding then
      accepted.filter (isBoundTo (outcomeReviewSourceBinding py row))
    else accepted
  matched.argmax fun review =>
    toLex (text py review "created_at", text py review "review_id")

/-! ## The call -/

/-- What a call computes from its sources before it decides. -/
structure Prepared where
  signals : List PaperActionSignal
  sourceTerminalAll : List PaperActionSignal
  sourceTerminalMarket : List PaperActionSignal
  sourceTerminal : List PaperActionSignal
  outcomeReviews : List (String × Dict)

/-- The review of a signal of the terminal source. -/
def Prepared.review (p : Prepared) (sig : PaperActionSignal) : Dict :=
  ((p.outcomeReviews.find? fun r => r.1 = trainingRowId sig).map Prod.snd).getD []

def prepare (s : Sources) : Except String Prepared := do
  let signals ← projectCurrentV2Outcomes py s
  let sourceTerminalAll := signals.filter isTerminal
  let sourceTerminalMarket := sourceTerminalAll.filter (isMarketSignal py)
  let sourceTerminal := sourceTerminalMarket.filter (isBound s)
  let preliminaryRows ← sourceTerminal.mapM fun sig => trainingRow py sig (s.refs [] sig)
  let outcomeReviews := (sourceTerminal.zip preliminaryRows).filterMap fun r =>
    (matchingOutcomeReview py s.authorityDatabaseExists r.2
      (s.outcomeReviews (trainingRowId r.1))).map (trainingRowId r.1, ·)
  return ⟨signals, sourceTerminalAll, sourceTerminalMarket, sourceTerminal, outcomeReviews⟩

/-- What `_source_hash` digests. -/
def sourcePayload (signals : List PaperActionSignal) : Value :=
  .arr ((sortOn PaperActionSignal.signalId signals).map fun sig => .obj sig.toDict)

def refsEntry (s : Sources) (p : Prepared) (sig : PaperActionSignal) : Value :=
  .obj [("signal_id", .str sig.signalId),
    ("feature_packet_id", .str sig.featurePacketId),
    ("card", .obj (s.card sig)),
    ("trade", .obj (s.trade sig)),
    ("advice", .obj (s.adviceOf sig)),
    ("policy", .obj (s.policy sig)),
    ("outcome_review", .obj (p.review sig))]

/-- What `_refs_hash` digests. -/
def refsPayload (s : Sources) (p : Prepared) : Value :=
  .arr ((sortOn PaperActionSignal.signalId p.sourceTerminal).map (refsEntry s p))

/-- The signals that the call exports. -/
def Prepared.selected (p : Prepared) (terminalOnly : Bool) : List PaperActionSignal :=
  if terminalOnly then p.sourceTerminal else p.signals.filter (isMarketSignal py)

/-- The row of a selected signal, before the rows of operational incidents are dropped. -/
def candidateRow (s : Sources) (p : Prepared) (sig : PaperActionSignal) : Except String Dict :=
  trainingRow py sig (s.refs (p.review sig) sig)

def rowFieldsVersion : String := "outcome_evidence_taxonomy.v3"

/-- The summary of a call, as the snapshot keeps it. -/
structure Summary (δ : Type) where
  rowFieldsVersion : String
  rows : ℕ
  terminalOnly : Bool
  sourceTerminalRows : ℕ
  sourceTerminalRowsDiscovered : ℕ
  sourceTerminalRowsTechnicalCensored : ℕ
  referencedOperationalRowsCensored : ℕ
  sourceTerminalRowsUnbound : ℕ
  sourceTerminalHash : δ
  exportRefsHash : δ

/-- The JSONL with its rows, whose members are sorted, and the snapshot. -/
structure Files (δ : Type) where
  jsonl : Option (List Dict) := none
  snapshot : Option (Summary δ) := none

inductive Result (δ : Type)
  | skipped (existing : Summary δ)
  | written (summary : Summary δ)

structure Call where
  sources : Sources
  terminalOnly : Bool := true
  force : Bool := false

variable {δ : Type} [DecidableEq δ] (digest : Value → δ)

/-- `int(existing.get("source_terminal_rows") or -1)`. -/
def storedRows (n : ℕ) : ℤ := if n = 0 then -1 else n

/-- The summary of the last export stands for the same terminal source. -/
def sourceUnchanged (s : Sources) (p : Prepared) (existing : Summary δ) : Bool :=
  decide (existing.sourceTerminalHash = digest (sourcePayload p.sourceTerminal)) &&
    decide (existing.exportRefsHash = digest (refsPayload s p)) &&
    decide (existing.rowFieldsVersion = rowFieldsVersion) &&
    decide (storedRows existing.sourceTerminalRows = p.sourceTerminal.length)

/-- The summary that lets the call skip the export. -/
def skippable (call : Call) (p : Prepared) (files : Files δ) : Option (Summary δ) :=
  if call.terminalOnly = true ∧ call.force = false ∧ files.jsonl.isSome = true then
    files.snapshot.filter (sourceUnchanged digest call.sources p)
  else none

/-- The files that the call writes, with its summary. -/
def written (call : Call) (p : Prepared) : Except String (Files δ × Summary δ) := do
  let candidateRows ← (p.selected py call.terminalOnly).mapM (candidateRow py call.sources p)
  let rows := candidateRows.filter (isMarketOutcome py)
  let summary := {
    rowFieldsVersion := rowFieldsVersion
    rows := rows.length
    terminalOnly := call.terminalOnly
    sourceTerminalRows := p.sourceTerminal.length
    sourceTerminalRowsDiscovered := p.sourceTerminalAll.length
    sourceTerminalRowsTechnicalCensored :=
      p.sourceTerminalAll.length - p.sourceTerminalMarket.length
    referencedOperationalRowsCensored := candidateRows.length - rows.length
    sourceTerminalRowsUnbound := p.sourceTerminalMarket.length - p.sourceTerminal.length
    sourceTerminalHash := digest (sourcePayload p.sourceTerminal)
    exportRefsHash := digest (refsPayload call.sources p) }
  return (⟨some (rows.map sortedRow), some summary⟩, summary)

/-- `export_training_rows`; a call that raises leaves both files. -/
def exportTrainingRows (call : Call) (files : Files δ) : Except String (Files δ × Result δ) := do
  let p ← prepare py call.sources
  match skippable digest call p files with
  | some existing => return (files, .skipped existing)
  | none =>
      let (files', summary) ← written py digest call p
      return (files', .written summary)

/-- The files after a call, and whether it wrote them. -/
def filesAfter (files : Files δ) : Except String (Files δ × Result δ) → Files δ × Bool
  | .ok (files', .written _) => (files', true)
  | .ok (files', .skipped _) => (files', false)
  | .error _ => (files, false)

def afterCall (call : Call) (files : Files δ) : Files δ × Bool :=
  filesAfter files (exportTrainingRows py digest call files)

/-- The files after a history of calls, and the last call that wrote them. -/
def runFrom (files : Files δ) (last : Option Call) (history : List Call) :
    Files δ × Option Call :=
  history.foldl (fun run call =>
    let after := afterCall py digest call run.1
    (after.1, if after.2 then some call else run.2)) (files, last)

def runCalls (files : Files δ) (history : List Call) : Files δ :=
  (runFrom py digest files none history).1

def lastWriting (files : Files δ) (history : List Call) : Option Call :=
  (runFrom py digest files none history).2

end ResearchLab.TrainingExport
