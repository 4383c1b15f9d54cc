import Mathlib
import ResearchLab.Foundation.Checks
import ResearchLab.Foundation.Sorting

/-!
# Plans of the backup retention

A plan lists every file of the backup root with its content digest. `_plan_from_mapping` checks an
untrusted plan against itself; whether it describes the tree is checked when it is applied. The
types of its members, its constants and the digest of the plan itself are left out.
-/
namespace ResearchLab.BackupRetention

open Foundation

/-! ## Source references -/

theorem not_mem_of_mem_splitOn {c : Char} {text part : List Char} (h : part ∈ text.splitOn c) :
    c ∉ part := by
  induction text generalizing part with
  | nil =>
    obtain rfl : part = [] := by simpa using h
    exact List.not_mem_nil
  | cons d text ih =>
    rw [List.splitOn_cons_eq_if_modifyHead] at h
    split at h
    · rcases List.mem_cons.1 h with rfl | h
      · exact List.not_mem_nil
      · exact ih h
    · next hne =>
      cases hs : text.splitOn c with
      | nil => exact absurd hs (List.splitOn_ne_nil c text)
      | cons first rest =>
        rw [hs] at h ih
        rcases List.mem_cons.1 h with rfl | h
        · have hfirst := ih List.mem_cons_self
          have hdc : d ≠ c := by simpa using hne
          simp [hfirst, hdc.symm]
        · exact ih (List.mem_cons_of_mem _ h)

/-- The parts that `PurePosixPath` keeps of a reference: the name by which the file system knows
the file. -/
structure SourcePath where
  parts : List (List Char)
  proper : ∀ part ∈ parts, part ≠ [] ∧ part ≠ ['.'] ∧ '/' ∉ part
  deriving DecidableEq

namespace SourcePath

theorem proper_splitOn (value : List Char) :
    ∀ part ∈ (value.splitOn '/').filter (fun part => part ≠ [] ∧ part ≠ ['.']),
      part ≠ [] ∧ part ≠ ['.'] ∧ '/' ∉ part := by
  intro part hpart
  obtain ⟨hmem, hkept⟩ := List.mem_filter.1 hpart
  obtain ⟨hnil, hdot⟩ := of_decide_eq_true hkept
  exact ⟨hnil, hdot, not_mem_of_mem_splitOn hmem⟩

/-- `PurePosixPath(value)` drops empty parts and dots. -/
def ofRef (value : String) : SourcePath := ⟨_, proper_splitOn value.toList⟩

/-- `path.relative_to(root).as_posix()`. -/
def asPosix (p : SourcePath) : String := String.ofList (['/'].intercalate p.parts)

theorem ofRef_asPosix {p : SourcePath} (hp : p.parts ≠ []) : ofRef p.asPosix = p := by
  have hsplit : (['/'].intercalate p.parts).splitOn '/' = p.parts :=
    List.splitOn_intercalate '/' (fun part hpart => (p.proper part hpart).2.2) hp
  have hkept : p.parts.filter (fun part => part ≠ [] ∧ part ≠ ['.']) = p.parts :=
    List.filter_eq_self.2 fun part hpart =>
      decide_eq_true ⟨(p.proper part hpart).1, (p.proper part hpart).2.1⟩
  simp only [ofRef, asPosix, String.toList_ofList, hsplit, hkept]

end SourcePath

/-- `_safe_relative`; `reject` is `reject_sensitive_data`. -/
def safeRelative (reject : String → Bool) (value : String) : Except String SourcePath :=
  let relative := SourcePath.ofRef value
  if value = "" ∨ '\\' ∈ value.toList then .error "backup source reference is not canonical"
  else if value.toList.head? = some '/' ∨
      ∃ part ∈ relative.parts, part = [] ∨ part = ['.'] ∨ part = ['.', '.'] then
    .error "backup source reference is unsafe"
  else if relative.parts.length < 2 then .error "backup source reference lacks a generation"
  else if reject value then .error "backup source reference is sensitive"
  else .ok relative

theorem safeRelative_eq_ok {reject : String → Bool} {value : String} {relative : SourcePath} :
    safeRelative reject value = .ok relative →
      relative = SourcePath.ofRef value ∧ 2 ≤ relative.parts.length := by
  intro h
  simp only [safeRelative, check_eq_ok, Except.ok.injEq] at h
  obtain ⟨-, -, hlength, -, rfl⟩ := h
  exact ⟨rfl, not_lt.1 hlength⟩

/-! ## The plan -/

variable {δ φ : Type}

structure BackupFile (δ : Type) where
  sourceRef : String
  generation : String
  logicalBytes : ℕ
  mtimeNs : ℤ
  sourceSha256 : δ
  deriving DecidableEq

structure BackupGeneration where
  generation : String
  completeGeneration : Bool
  newestMtimeNs : ℤ
  logicalBytes : ℕ
  fileCount : ℕ
  disposition : String
  deriving DecidableEq

structure BackupRetentionPlan (δ φ : Type) where
  backupFilesystem : φ
  archiveFilesystem : φ
  retainUnpackedGenerations : List String
  archiveRemoveGenerations : List String
  generations : List BackupGeneration
  files : List (BackupFile δ)
  sourceLogicalBytes : ℕ
  retainedLogicalBytes : ℕ
  reclaimCandidateBytes : ℕ
  uniqueArchiveLogicalBytes : ℕ
  maxBackupBytes : ℕ
  minFreeBytes : ℕ
  deriving DecidableEq

/-- The name that the file system has for the source of an item. -/
def BackupFile.path (item : BackupFile δ) : SourcePath := SourcePath.ofRef item.sourceRef

/-- `_is_complete_generation`. -/
def isCompleteGeneration (relativeRefs : List String) : Bool :=
  let roots := relativeRefs.map fun value => (SourcePath.ofRef value).parts[1]?
  ["raw", "logical", "restore"].all fun name => roots.contains (some name.toList)

/-- The files of the generations that are archived and removed. -/
def BackupRetentionPlan.candidates (plan : BackupRetentionPlan δ φ) : List (BackupFile δ) :=
  plan.files.filter fun item => plan.archiveRemoveGenerations.contains item.generation

/-- The first file with each digest. -/
def firstByDigest [DecidableEq δ] (files : List (BackupFile δ)) : List (BackupFile δ) :=
  files.foldl
    (fun kept item => if kept.any (·.sourceSha256 = item.sourceSha256) then kept else kept ++ [item])
    []

def totalBytes (files : List (BackupFile δ)) : ℕ := (files.map (·.logicalBytes)).sum

/-- The check of one file. -/
def checkFile (reject : String → Bool) (item : BackupFile δ) : Except String Unit := do
  let relative ← safeRelative reject item.sourceRef
  if relative.parts.head? ≠ some item.generation.toList ∨ item.mtimeNs < 0 then
    .error "cleanup plan file entry is invalid"
  else .ok ⟨⟩

/-- The check of one generation. -/
def checkGeneration (plan : BackupRetentionPlan δ φ) (generation : BackupGeneration) :
    Except String Unit :=
  let items := plan.files.filter (·.generation = generation.generation)
  let expectedDisposition :=
    if generation.generation ∈ plan.retainUnpackedGenerations then "retain_unpacked"
    else "archive_then_remove"
  if generation.disposition ≠ expectedDisposition ∨ generation.fileCount ≠ items.length ∨
      generation.logicalBytes ≠ totalBytes items ∨
      generation.newestMtimeNs ≠ (items.map (·.mtimeNs)).max?.getD 0 ∨
      generation.completeGeneration ≠ isCompleteGeneration (items.map (·.sourceRef)) then
    .error "cleanup plan generation aggregate is invalid"
  else .ok ⟨⟩

/-- `_plan_from_mapping`. -/
def checkPlan [DecidableEq δ] (reject : String → Bool) (plan : BackupRetentionPlan δ φ) :
    Except String Unit := do
  let names := plan.generations.map (·.generation)
  if "" ∈ plan.retainUnpackedGenerations ∨ "" ∈ plan.archiveRemoveGenerations ∨
      plan.retainUnpackedGenerations.length ≠ 1 ∨
      ∃ name ∈ plan.retainUnpackedGenerations, name ∈ plan.archiveRemoveGenerations then
    .error "cleanup plan policy is invalid"
  else if "" ∈ names ∨ ∃ row ∈ plan.generations, row.newestMtimeNs < 0 then
    .error "cleanup plan generation entry is invalid"
  else if ¬ names.Nodup ∨ names.toFinset ≠
      (plan.retainUnpackedGenerations ++ plan.archiveRemoveGenerations).toFinset then
    .error "cleanup plan generation partition is invalid"
  else if sortOn (·.sourceRef) plan.files ≠ plan.files then
    .error "cleanup plan files are not canonical"
  else if ¬ (plan.files.map (·.sourceRef)).Nodup then
    .error "cleanup plan source references are duplicated"
  else do
    plan.files.forM (checkFile reject)
    plan.generations.forM (checkGeneration plan)
    if plan.maxBackupBytes = 0 ∨ plan.minFreeBytes = 0 ∨
        plan.sourceLogicalBytes ≠ totalBytes plan.files ∨
        plan.retainedLogicalBytes ≠ totalBytes
          (plan.files.filter fun item => plan.retainUnpackedGenerations.contains item.generation) ∨
        plan.reclaimCandidateBytes ≠ totalBytes plan.candidates ∨
        plan.uniqueArchiveLogicalBytes ≠ totalBytes (firstByDigest plan.candidates) then
      .error "cleanup plan byte aggregate is invalid"
    else .ok ⟨⟩

/-- What the check says of the files: each lies in the generation that its path begins with and is
not dated before 1970, and no generation is both retained and archived. -/
structure BackupRetentionPlan.Checked (reject : String → Bool) (plan : BackupRetentionPlan δ φ) :
    Prop where
  relative : ∀ item ∈ plan.files, safeRelative reject item.sourceRef = .ok item.path
  generation : ∀ item ∈ plan.files, item.path.parts.head? = some item.generation.toList
  dated : ∀ item ∈ plan.files, 0 ≤ item.mtimeNs
  refs_nodup : (plan.files.map (·.sourceRef)).Nodup
  disjoint : ∀ name ∈ plan.retainUnpackedGenerations, name ∉ plan.archiveRemoveGenerations

theorem checkFile_eq_ok {reject : String → Bool} {item : BackupFile δ}
    (h : checkFile reject item = .ok ⟨⟩) : safeRelative reject item.sourceRef = .ok item.path ∧
      item.path.parts.head? = some item.generation.toList ∧ 0 ≤ item.mtimeNs := by
  obtain ⟨relative, hrelative, h⟩ := bind_eq_ok.1 h
  obtain ⟨rfl, -⟩ := safeRelative_eq_ok hrelative
  rw [check_eq_ok, not_or, not_not, not_lt] at h
  exact ⟨hrelative, h.1⟩

theorem checked_of_checkPlan [DecidableEq δ] {reject : String → Bool} {plan : BackupRetentionPlan δ φ}
    (h : checkPlan reject plan = .ok ⟨⟩) : plan.Checked reject := by
  simp only [checkPlan, check_eq_ok, not_or, not_exists, not_and, not_not] at h
  obtain ⟨⟨-, -, -, hdisjoint⟩, -, -, -, hrefs, h⟩ := h
  obtain ⟨done, hfiles, -⟩ := bind_eq_ok.1 h
  rw [forM_eq_ok] at hfiles
  exact {
    relative := fun item hitem => (checkFile_eq_ok (hfiles item hitem)).1
    generation := fun item hitem => (checkFile_eq_ok (hfiles item hitem)).2.1
    dated := fun item hitem => (checkFile_eq_ok (hfiles item hitem)).2.2
    refs_nodup := hrefs
    disjoint := hdisjoint }

/-- No two files of the plan are one file of the file system. -/
def BackupRetentionPlan.PathsDistinct (plan : BackupRetentionPlan δ φ) : Prop :=
  (plan.files.map (·.path)).Nodup

instance pathsDistinctDecidable (plan : BackupRetentionPlan δ φ) : Decidable plan.PathsDistinct :=
  inferInstanceAs (Decidable (plan.files.map (·.path)).Nodup)

end ResearchLab.BackupRetention
