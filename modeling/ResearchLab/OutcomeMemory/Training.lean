import Mathlib
import ResearchLab.Foundation.Aggregates
import ResearchLab.Foundation.JsonValues
import ResearchLab.Foundation.Sorting

/-!
# The training rows of the outcome memory

An eligible training row is added to the aggregate of each candidate that it names, of its cell
and of its geometry profile in the cell.
-/
namespace ResearchLab.OutcomeMemory
open Foundation

/-- What is taken from the language: `str` of other values, `str.strip`, `str.upper` and `float`
of a text. -/
structure Python where
  repr : Json ℚ → String
  strip : String → String
  upper : String → String
  parseFloat : String → Option ℚ

/-- What a training row says about its candidate. -/
structure RowIdentity where
  candidateId : Json ℚ
  setupCandidateId : Json ℚ
  symbol : Json ℚ
  okxInstId : Json ℚ
  timeframe : Json ℚ
  family : Json ℚ
  farmGeometryProfileId : Json ℚ

/-- A training row; a missing field is `null`. -/
structure TrainingRow where
  identity : RowIdentity
  paperPnlUsdt : Json ℚ
  netPct : Json ℚ
  diagnosis : Json ℚ
  outcomeLearningBucket : Json ℚ
  outcomeLearningActionability : Json ℚ

variable (py : Python)

/-! ## Keys -/

def text (v : Json ℚ) : String := v.textOr py.repr

def normalizeSymbol (symbol : String) : String :=
  String.ofList ((py.upper (py.strip symbol)).toList.map fun c => if c = '-' then '_' else c)

def trainingCellKey (symbol timeframe family : String) : String :=
  let sym := normalizeSymbol py symbol
  let tf := py.strip timeframe
  let fam := py.strip family
  if sym = "" ∨ tf = "" ∨ fam = "" then "" else sym ++ "|" ++ tf ++ "|" ++ fam

def trainingGeometryProfileKey (symbol timeframe family profileId : String) : String :=
  let cell := trainingCellKey py symbol timeframe family
  let profile := py.strip profileId
  if cell = "" ∨ profile = "" then "" else cell ++ "|" ++ profile

namespace RowIdentity

/-- The candidates that a row names. -/
def candidateIds (row : RowIdentity) : List String :=
  ([py.strip (text py row.candidateId), py.strip (text py row.setupCandidateId)].filter
    (· ≠ "")).dedup

def cellKey (row : RowIdentity) : String :=
  trainingCellKey py (text py (row.symbol.orElse row.okxInstId)) (text py row.timeframe)
    (text py row.family)

def profileCellKey (row : RowIdentity) : String :=
  trainingGeometryProfileKey py (text py (row.symbol.orElse row.okxInstId))
    (text py row.timeframe) (text py row.family) (text py row.farmGeometryProfileId)

end RowIdentity

/-- A key that is not the empty text. -/
def keyList (key : String) : List String := if key = "" then [] else [key]

/-! ## Aggregates -/

structure TrainingAgg where
  rows : ℕ := 0
  terminalRows : ℕ := 0
  paperPnlUsdt : ℚ := 0
  netPctSum : ℚ := 0
  winRows : ℕ := 0
  lossRows : ℕ := 0
  gaveBackRows : ℕ := 0
  outcomeBucket : Table String ℕ := Table.empty
  actionability : Table String ℕ := Table.empty

def emptyTrainingAgg : TrainingAgg := {}

/-- `float(value)`, or `None` where it raises. -/
def floatOrNone : Json ℚ → Option ℚ
  | .float x => some x
  | .int n => some n
  | .bool b => some (if b then 1 else 0)
  | .str s => py.parseFloat s
  | _ => none

def TrainingRow.pnl (row : TrainingRow) : Option ℚ := floatOrNone py row.paperPnlUsdt
def TrainingRow.net (row : TrainingRow) : Option ℚ := floatOrNone py row.netPct

/-- A row with a result. -/
def TrainingRow.hasResult (row : TrainingRow) : Bool := (row.pnl py).isSome || (row.net py).isSome

/-- `counts[label] = counts.get(label, 0) + n`, for a label with a text. -/
def addCount (counts : Table String ℕ) (label : String) (n : ℕ) : Table String ℕ :=
  if label = "" then counts else counts.upsert label n (· + n)

/-- The running sum with a number, or as it was. -/
def addRounded (total : ℚ) : Option ℚ → ℚ
  | none => total
  | some x => roundTo 6 (total + x)

def addTrainingRow (agg : TrainingAgg) (row : TrainingRow) : TrainingAgg :=
  let pnl := row.pnl py
  let diagnosis := text py row.diagnosis
  let bucket := text py row.outcomeLearningBucket
  { rows := agg.rows + 1
    terminalRows := agg.terminalRows + if row.hasResult py then 1 else 0
    paperPnlUsdt := addRounded agg.paperPnlUsdt pnl
    netPctSum := addRounded agg.netPctSum (row.net py)
    winRows := agg.winRows + if pnl.any (0 < ·) then 1 else 0
    lossRows := agg.lossRows + if pnl.any (· < 0) then 1 else 0
    gaveBackRows := agg.gaveBackRows +
      if diagnosis = "bad_exit_gave_back" ∨ bucket = "gave_back" then 1 else 0
    outcomeBucket := addCount agg.outcomeBucket bucket 1
    actionability := addCount agg.actionability (text py row.outcomeLearningActionability) 1 }

/-- The three maps of `_training_memory`. -/
structure TrainingMemory where
  byCandidate : Table String TrainingAgg
  byCell : Table String TrainingAgg
  byGeometryProfileCell : Table String TrainingAgg

def trainingMemory (rows : List TrainingRow) : TrainingMemory where
  byCandidate := aggregate (fun row => row.identity.candidateIds py) (addTrainingRow py)
    emptyTrainingAgg rows
  byCell := aggregate (fun row => keyList (row.identity.cellKey py)) (addTrainingRow py)
    emptyTrainingAgg rows
  byGeometryProfileCell := aggregate (fun row => keyList (row.identity.profileCellKey py))
    (addTrainingRow py) emptyTrainingAgg rows

structure TrainingSummary where
  rows : ℕ := 0
  terminalRows : ℕ := 0
  paperPnlUsdt : ℚ := 0
  avgPaperPnlUsdt : ℚ := 0
  avgNetPct : ℚ := 0
  winRows : ℕ := 0
  lossRows : ℕ := 0
  gaveBackRows : ℕ := 0
  outcomeBucket : Table String ℕ := Table.empty
  actionability : Table String ℕ := Table.empty

def trainingSummary : Option TrainingAgg → TrainingSummary
  | none => {}
  | some agg =>
      let pnl := roundTo 6 agg.paperPnlUsdt
      let netSum := roundTo 6 agg.netPctSum
      { rows := agg.rows
        terminalRows := agg.terminalRows
        paperPnlUsdt := pnl
        avgPaperPnlUsdt := if agg.terminalRows = 0 then 0 else roundTo 6 (pnl / agg.terminalRows)
        avgNetPct := if agg.terminalRows = 0 then 0 else roundTo 6 (netSum / agg.terminalRows)
        winRows := agg.winRows
        lossRows := agg.lossRows
        gaveBackRows := agg.gaveBackRows
        outcomeBucket := agg.outcomeBucket
        actionability := agg.actionability }

/-! ## The product memory -/

def mergeCounts (target source : Table String ℕ) : Table String ℕ :=
  source.entries.foldl (fun t e => t.upsert e.1 e.2 (· + e.2)) target

def mergeTrainingAgg (target source : TrainingAgg) : TrainingAgg where
  rows := target.rows + source.rows
  terminalRows := target.terminalRows + source.terminalRows
  paperPnlUsdt := roundTo 6 (target.paperPnlUsdt + source.paperPnlUsdt)
  netPctSum := roundTo 6 (target.netPctSum + source.netPctSum)
  winRows := target.winRows + source.winRows
  lossRows := target.lossRows + source.lossRows
  gaveBackRows := target.gaveBackRows + source.gaveBackRows
  outcomeBucket := mergeCounts target.outcomeBucket source.outcomeBucket
  actionability := mergeCounts target.actionability source.actionability

/-- `key.split("|")`. -/
def splitBars (key : String) : List String := (key.toList.splitOn '|').map String.ofList

/-- The aggregates under keys of so many parts. -/
def entriesOf (parts : ℕ) (t : Table String TrainingAgg) : List (String × TrainingAgg) :=
  t.entries.filter fun e => (splitBars e.1).length = parts

/-- The aggregates that share a part of their keys, merged, in the order of that part. -/
def mergedBy (part : ℕ) (entries : List (String × TrainingAgg)) : List (String × TrainingSummary) :=
  let merged := aggregate (fun e => ((splitBars e.1)[part]?).toList)
    (fun agg e => mergeTrainingAgg agg e.2) emptyTrainingAgg entries
  (sortOn Prod.fst merged.entries).map fun e => (e.1, trainingSummary (some e.2))

structure ProductMemory where
  cells : ℕ
  geometryProfileCells : ℕ
  summary : TrainingSummary
  byFamily : List (String × TrainingSummary)
  byTimeframe : List (String × TrainingSummary)
  byGeometryProfile : List (String × TrainingSummary)
  byCell : List (String × TrainingSummary)
  byGeometryProfileCell : List (String × TrainingSummary)

def summarizeProductTrainingMemory (rows : List TrainingRow) : ProductMemory :=
  let memory := trainingMemory py rows
  let cells := entriesOf 3 memory.byCell
  let profiles := entriesOf 4 memory.byGeometryProfileCell
  { cells := cells.length
    geometryProfileCells := profiles.length
    summary := trainingSummary
      (some (cells.foldl (fun total e => mergeTrainingAgg total e.2) emptyTrainingAgg))
    byFamily := mergedBy 2 cells
    byTimeframe := mergedBy 1 cells
    byGeometryProfile := mergedBy 3 profiles
    byCell := cells.map fun e => (e.1, trainingSummary (some e.2))
    byGeometryProfileCell := profiles.map fun e => (e.1, trainingSummary (some e.2)) }

/-! ## The memory index -/

/-- What the index reads of a candidate of the lifecycle. -/
structure LifecycleCandidate where
  ucKey : String
  sourceCandidateId : String
  validationCandidateId : String
  symbol : String
  timeframe : String
  family : String

/-- The paper outcomes of a record of the index. -/
structure MemoryRecord where
  ucKey : String
  productTraining : TrainingSummary
  paperPnlUsdt : ℚ
  paperAvgPnlUsdt : ℚ
  paperTerminalRows : ℕ
  paperGaveBackRows : ℕ

/-- The aggregate of the candidate, of the candidate that was validated, or of the cell. -/
def aggregateFor (memory : TrainingMemory) (lc : LifecycleCandidate) : Option TrainingAgg :=
  ((memory.byCandidate.row lc.sourceCandidateId).or
    (memory.byCandidate.row lc.validationCandidateId)).or
    (memory.byCell.row (trainingCellKey py lc.symbol lc.timeframe lc.family))

def memoryRecord (memory : TrainingMemory) (lc : LifecycleCandidate) : MemoryRecord :=
  let productTraining := trainingSummary (aggregateFor py memory lc)
  { ucKey := lc.ucKey
    productTraining := productTraining
    paperPnlUsdt := productTraining.paperPnlUsdt
    paperAvgPnlUsdt := productTraining.avgPaperPnlUsdt
    paperTerminalRows := productTraining.terminalRows
    paperGaveBackRows := productTraining.gaveBackRows }

def buildMemoryIndex (lifecycle : List LifecycleCandidate) (rows : List TrainingRow) :
    List MemoryRecord := lifecycle.map (memoryRecord py (trainingMemory py rows))

/-- The paper counts of `summarize_memory`. -/
structure MemorySummary where
  total : ℕ
  paperMemoryRows : ℕ
  paperTerminalRows : ℕ
  paperPnlUsdt : ℚ
  paperAvgPnlUsdt : ℚ
  paperGaveBackRows : ℕ

def summarizeMemory (records : List MemoryRecord) : MemorySummary :=
  let paperRows := records.filter fun r => 0 < r.paperTerminalRows
  let totalPaperPnl := roundTo 6 (paperRows.map MemoryRecord.paperPnlUsdt).sum
  let totalPaperTerminal := (paperRows.map MemoryRecord.paperTerminalRows).sum
  { total := records.length
    paperMemoryRows := paperRows.length
    paperTerminalRows := totalPaperTerminal
    paperPnlUsdt := totalPaperPnl
    paperAvgPnlUsdt :=
      if totalPaperTerminal = 0 then 0 else roundTo 6 (totalPaperPnl / totalPaperTerminal)
    paperGaveBackRows := (paperRows.map MemoryRecord.paperGaveBackRows).sum }

end ResearchLab.OutcomeMemory
