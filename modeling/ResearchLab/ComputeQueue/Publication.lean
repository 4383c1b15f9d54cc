import Mathlib
import ResearchLab.ComputeQueue.Fencing

/-!
# Publications and their recovery

The import of a run directory, the steps of `recover_pending_publications` between two accesses
to the file system or the database, and the farm in which workers publish, crash and recover.
-/
namespace ResearchLab.ComputeQueue
open Foundation

/-! ## Importing a run -/

/-- A row of `candidates` without its `run_id`. -/
structure CandidateRow where
  candidateId : String
  symbol : String
  family : String
  decision : String
  reasons : String
  metricsJson : String
  paramsJson : String
  validationStatus : String
  validationReasons : String
  nextAction : String
  deriving DecidableEq

/-- What `import_run_dir` reads in a run directory. -/
structure RunFiles where
  experimentId : String := ""
  createdAt : String := ""
  rows : List CandidateRow := []
  deriving DecidableEq

structure RunRow where
  experimentId : String
  createdAt : String
  artifactLabel : String
  candidateCount : ℕ
  promoteCount : ℕ
  observeCount : ℕ
  rejectCount : ℕ
  importedAt : String
  deriving DecidableEq

/-- The tables `runs` and `candidates`. -/
structure Imports where
  runs : Table String RunRow
  candidates : List (String × CandidateRow)

def Imports.empty : Imports := ⟨.empty, []⟩

/-- The candidates of one run, in the order of their insertion. -/
def Imports.candidatesOf (tables : Imports) (runId : String) : List CandidateRow :=
  (tables.candidates.filter fun c => c.1 = runId).map Prod.snd

def decisionCount (rows : List CandidateRow) (decision : String) : ℕ :=
  (rows.filter fun r => r.decision = decision).length

/-- `name.split("_", 2)`, the third part or the whole. -/
def experimentFromRunName (name : String) : String :=
  match (name.splitOn "_") with
  | _ :: _ :: rest@(_ :: _) => "_".intercalate rest
  | _ => name

def importedRun (runId label utc : String) (files : RunFiles) : RunRow where
  experimentId := if files.experimentId = "" then experimentFromRunName runId
    else files.experimentId
  createdAt := files.createdAt
  artifactLabel := label
  candidateCount := files.rows.length
  promoteCount := decisionCount files.rows "PROMOTE_FOR_PRESSURE_TEST"
  observeCount := decisionCount files.rows "OBSERVE"
  rejectCount := decisionCount files.rows "REJECT"
  importedAt := utc

/-- `import_run_dir`; `sideTables` is what the imports into `farm_results` and `runtime_stats`
raise, two tables that nothing here reads. -/
def importRunDir (runId label utc : String) (files : RunFiles) (sideTables : Option String)
    (tables : Imports) : Except String (ℕ × Imports) :=
  let run := importedRun runId label utc files
  let runs := tables.runs.upsert runId run fun _ => run
  let others := tables.candidates.filter fun c => c.1 ≠ runId
  if ¬ (files.rows.map CandidateRow.candidateId).Nodup then
    .error "UNIQUE constraint failed: candidates.run_id, candidates.candidate_id"
  else
    match sideTables with
    | some e => .error e
    | none => .ok (files.rows.length, ⟨runs, others ++ files.rows.map fun r => (runId, r)⟩)

/-! ## Recovery step by step -/

/-- The next access of a recovery to the row at hand. -/
inductive RecoveryStage
  | look | lookFinal | lookAgain | rename | lookPublished | update
  deriving DecidableEq

/-- A call of `recover_pending_publications`: the selected rows that are left. -/
structure Recovery where
  rows : List ((ℕ × ℕ) × PublicationRow)
  stage : RecoveryStage

def bothDirectories : JobError := .other "publication has both provisional and final directories"

/-- Up to the next access: an error, the return, or the call with its next access. The checks of
the paths read nothing and belong to the first access. -/
def recoverAccess (root : List String) (now : ℚ) (call : Recovery) (dirs : Directories)
    (db : QueueDb) : Except JobError (Option Recovery) × Directories × QueueDb :=
  match call.rows with
  | [] => (.ok none, dirs, db)
  | (key, row) :: rest =>
      let finalDir := root ++ row.finalLabel
      match call.stage with
      | .look =>
          if !relativeTo (provisionalRoot root) row.provisionalPath then
            (.error (.value "not in the subpath"), dirs, db)
          else if !relativeTo (completedRoot root) finalDir then
            (.error (.value "not in the subpath"), dirs, db)
          else if finalDir.getLastD "" ≠ row.provisionalPath.getLastD "" then
            (.error (.other "publication paths identify different generations"), dirs, db)
          else if dirs row.provisionalPath then (.ok (some { call with stage := .lookFinal }), dirs, db)
          else (.ok (some { call with stage := .lookAgain }), dirs, db)
      | .lookFinal =>
          if dirs finalDir then (.error bothDirectories, dirs, db)
          else (.ok (some { call with stage := .lookAgain }), dirs, db)
      | .lookAgain =>
          if dirs row.provisionalPath then (.ok (some { call with stage := .rename }), dirs, db)
          else (.ok (some { call with stage := .lookPublished }), dirs, db)
      | .rename =>
          -- `replace` raises without its source and over a directory that is not empty
          if !dirs row.provisionalPath ∨ dirs finalDir then
            (.error (.other "provisional directory cannot be replaced"), dirs, db)
          else
            (.ok (some { call with stage := .lookPublished }),
              renameDirectory row.provisionalPath finalDir dirs, db)
      | .lookPublished =>
          if dirs finalDir then (.ok (some { call with stage := .update }), dirs, db)
          else (.ok (some ⟨rest, .look⟩), dirs, db)
      | .update =>
          match db.publications.compareAndSet key (fun p => p.state = .pendingRename)
            (fun p => { p with state := .directoryPublished, publishedAt := some now }) with
          | none => (.ok (some ⟨rest, .look⟩), dirs, db)
          | some publications => (.ok (some ⟨rest, .look⟩), dirs, { db with publications })

/-- `mark_publication_indexes_published`. -/
def markPublicationIndexesPublished (key : ℕ × ℕ) (now : ℚ) (db : QueueDb) :
    Except JobError Unit × QueueDb :=
  match db.publications.compareAndSet key
    (fun p => p.state = .directoryPublished ∨ p.state = .published)
    (fun p => { p with state := .published, publishedAt := some now }) with
  | none => (.error (.other "publication generation is not ready for secondary indexes"), db)
  | some publications => (.ok (), { db with publications })

/-! ## The publishing farm -/

/-- What `write_run_outputs` leaves in the provisional directory of an attempt. -/
structure Outputs where
  name : String
  generation : GenerationFile
  files : RunFiles

/-- `outputs` remembers which attempt made which provisional directory. -/
structure PublicationFarm where
  farm : Farm
  imports : Imports
  outputs : Table (ℕ × ℕ) Outputs
  recoveries : ℕ → Option Recovery

def Claim.key (claim : Claim) : ℕ × ℕ := (claim.jobId, claim.fencingToken)

def provisionalDir (root : List String) (out : Outputs) : List String :=
  provisionalRoot root ++ [out.name]

def finalDir (root : List String) (out : Outputs) : List String :=
  completedRoot root ++ [out.name]

/-- The arguments of a `publish_completed_job` for the directory of the attempt. -/
def publishArgs (root : List String) (out : Outputs) (now : Option ℚ) (dirs : Directories) :
    PublishArgs where
  privateRoot := root
  provisionalDir := provisionalDir root out
  generation := if dirs (provisionalDir root out) then out.generation else .unreadable
  now := now

/-- The files that an import finds. -/
def filesAt (s : PublicationFarm) (claim : Claim) (dir : List String) : RunFiles :=
  match s.outputs.row claim.key with
  | some out => if s.farm.dirs dir then out.files else {}
  | none => {}

def runIdOf (args : PublishArgs) : String := args.provisionalDir.getLastD ""

/-- What the surroundings answer to the transaction of `publish_completed_job`. -/
structure CommitObservation where
  clock : Readings
  utc : String
  importedAt : String
  sideTables : Option String

/-- The import inside the transaction of a publication. -/
def importOf (s : PublicationFarm) (claim : Claim) (args : PublishArgs) (obs : CommitObservation) :
    Except String (ℕ × Imports) :=
  importRunDir (runIdOf args) ("/".intercalate (finalLabelOf args.provisionalDir)) obs.importedAt
    (filesAt s claim args.provisionalDir) obs.sideTables s.imports

/-- The transaction of `publish_completed_job`: the import is kept only if all of it commits. -/
def PublicationFarm.commit (s : PublicationFarm) (worker : ℕ) (obs : CommitObservation) :
    PublicationFarm :=
  match s.farm.pending worker with
  | some (.publish claim args) =>
      let imported := importOf s claim args obs
      let observation : Observation := ⟨obs.clock, obs.utc, imported.map Prod.fst⟩
      let reply := (publishWrite claim args observation.imported obs.clock obs.utc
        (s.farm.conn worker) s.farm.db).1
      { s with
        farm := s.farm.step (.resume worker observation)
        imports :=
          match reply, imported with
          | .ok _, .ok (_, tables) => tables
          | _, _ => s.imports }
  | _ => s

inductive PublicationAction
  | call (action : Action)
  | writeOutputs (key : ℕ × ℕ) (out : Outputs)
  | publish (worker : ℕ) (claim : Claim) (now : Option ℚ) (observed : ℚ)
  | commit (worker : ℕ) (obs : CommitObservation)
  | select (recovery : ℕ) (key : Option (ℕ × ℕ))
  | access (recovery : ℕ) (now : ℚ)
  | crash (recovery : ℕ)
  | mark (key : ℕ × ℕ) (now : ℚ)

def callOf : Except JobError (Option Recovery) → Option Recovery
  | .ok call => call
  | .error _ => none

def PublicationFarm.step (root : List String) (s : PublicationFarm) :
    PublicationAction → PublicationFarm
  | .call action => { s with farm := s.farm.step action }
  | .writeOutputs key out =>
      { s with
        farm := { s.farm with dirs := Function.update s.farm.dirs (provisionalDir root out) true }
        outputs := s.outputs.insert key out }
  | .publish worker claim now observed =>
      match s.outputs.row claim.key with
      | none => s
      | some out =>
          { s with
            farm := s.farm.step
              (.begin worker claim (.publish (publishArgs root out now s.farm.dirs)) observed) }
  | .commit worker obs => s.commit worker obs
  | .select recovery key =>
      { s with
        recoveries := Function.update s.recoveries recovery
          (some ⟨pendingPublications key s.farm.db, .look⟩) }
  | .access recovery now =>
      match s.recoveries recovery with
      | none => s
      | some call =>
          let r := recoverAccess root now call s.farm.dirs s.farm.db
          { s with
            farm := { s.farm with dirs := r.2.1, db := r.2.2 }
            recoveries := Function.update s.recoveries recovery (callOf r.1) }
  | .crash recovery => { s with recoveries := Function.update s.recoveries recovery none }
  | .mark key now =>
      { s with farm := { s.farm with db := (markPublicationIndexesPublished key now s.farm.db).2 } }

/-- The calls that neither complete a job nor touch a publication. -/
def Action.unpublished (s : Farm) : Action → Prop
  | .begin _ _ (.complete ..) _ => False
  | .begin _ _ (.publish _) _ => False
  | .resume worker _ => ∀ claim args, s.pending worker ≠ some (.publish claim args)
  | .recover .. => False
  | _ => True

def PublicationFarm.enabled (s : PublicationFarm) : PublicationAction → Prop
  | .call action => s.farm.enabled action ∧ action.unpublished s.farm
  -- an attempt makes one directory, under a name of its own
  | .writeOutputs key out => s.outputs.row key = none ∧
      ∀ key' out', s.outputs.row key' = some out' → out'.name ≠ out.name
  | .publish worker claim .. => s.farm.pending worker = none ∧ s.outputs.row claim.key ≠ none
  | .commit worker _ => ∃ claim args, s.farm.pending worker = some (.publish claim args)
  | .select recovery _ => s.recoveries recovery = none
  | .access recovery _ => s.recoveries recovery ≠ none
  | .crash _ => True
  | .mark .. => True

/-- Any number of workers that publish to one private root, and of recoveries by anyone. -/
def publications (root : List String) : Machine PublicationFarm PublicationAction where
  init s := computeQueue.init s.farm ∧ s.farm.dirs = (fun _ => false) ∧ s.imports = .empty ∧
    s.outputs = .empty ∧ ∀ recovery, s.recoveries recovery = none
  enabled := PublicationFarm.enabled
  step := PublicationFarm.step root

/-- A recovery that is about to rename the directory of a publication while another one has seen
it and has not yet looked for the final directory. -/
def Disturbs (s : PublicationFarm) : PublicationAction → Prop
  | .access recovery _ => ∃ key row rest, s.recoveries recovery = some ⟨(key, row) :: rest, .rename⟩ ∧
      ∃ other row' rest', s.recoveries other = some ⟨(key, row') :: rest', .lookFinal⟩
  | _ => False

/-- The same farm without such renames. -/
def orderlyPublications (root : List String) : Machine PublicationFarm PublicationAction where
  init := (publications root).init
  enabled s a := s.enabled a ∧ ¬ Disturbs s a
  step := PublicationFarm.step root

end ResearchLab.ComputeQueue
