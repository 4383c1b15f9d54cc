import Mathlib
import ResearchLab.Foundation.Execution
import ResearchLab.BackupRetention.Plan

/-!
# Applying a retention plan

`apply_retention_plan` under the lock of the archive: one source after the other is compressed into
a staging file, verified, linked under its digest, recorded in a manifest and removed. Every file
operation is one effect, so that a run may be cut between any two. The archive takes the space of
the objects and of the staging file; manifests and reports are not counted.
-/
namespace ResearchLab.BackupRetention

open Foundation

variable {δ φ : Type}

/-! ## The disk -/

structure SourceFile where
  content : List UInt8
  mtimeNs : ℤ
  deriving DecidableEq

/-- A file under the name of a digest: what `gzip` restores of it, if anything. -/
structure ArchiveObject where
  restored : Option (List UInt8)
  storedBytes : ℕ
  deriving DecidableEq

structure FileManifest (δ : Type) where
  generation : String
  sourceRef : String
  sourceSha256 : δ
  logicalBytes : ℕ
  objectSha256 : δ
  storedBytes : ℕ
  deriving DecidableEq

/-- A file under the name of a manifest: a manifest with its own digest, in the canonical bytes or in
others, or something else. -/
inductive ManifestFile (δ : Type)
  | digested (manifest : FileManifest δ) (canonical : Bool)
  | unreadable
  deriving DecidableEq

structure ApplyReport where
  changedFiles : ℕ
  alreadyAppliedFiles : ℕ
  removedDirectories : ℕ
  logicalBytesReclaimed : ℕ
  archiveObjectsCreated : ℕ
  archiveObjectsReused : ℕ
  archiveStoredBytes : ℕ
  deriving DecidableEq

/-- Both roots, the staging file that was opened last, and the free space of the archive. -/
structure RetentionDisk (δ φ : Type) where
  backupFilesystem : φ
  archiveFilesystem : φ
  sources : AList fun _ : SourcePath => SourceFile
  directories : List SourcePath
  objects : δ → Option ArchiveObject
  manifests : String × δ → Option (ManifestFile δ)
  report : Option ApplyReport
  stagedBytes : ℕ
  stagedLinked : Bool
  free : ℤ

inductive RetentionEffect (δ : Type)
  | look
  | openStaging
  | writeStaging (bytes : ℕ)
  | linkObject (sourceSha256 : δ) (object : ArchiveObject)
  | unlinkStaging
  | linkManifest (key : String × δ) (manifest : FileManifest δ)
  | unlinkSource (path : SourcePath)
  | removeEmptyDirectories (generation : String)
  | writeReport (report : ApplyReport)

/-- A link says whether it was made; looking shows the disk. -/
def RetentionEffect.Answer (δ φ : Type) : RetentionEffect δ → Type
  | .look => RetentionDisk δ φ
  | .linkObject _ _ => Bool
  | .linkManifest _ _ => Bool
  | .removeEmptyDirectories _ => ℕ
  | _ => PUnit

/-- The directory lies in the generation and no file lies beneath it. -/
def RetentionDisk.EmptyIn (disk : RetentionDisk δ φ) (generation : String) (d : SourcePath) : Prop :=
  d.parts.head? = some generation.toList ∧ ∀ p ∈ disk.sources.keys, ¬ d.parts <+: p.parts

instance emptyInDecidable (disk : RetentionDisk δ φ) (generation : String) (d : SourcePath) :
    Decidable (disk.EmptyIn generation d) := inferInstanceAs (Decidable (_ ∧ _))

/-- What a file operation does. Removing a source frees space where the archive lies only if both
roots are on one file system, and then all of its bytes: the source has no second hard link. The
empty directories of a generation go in one step. -/
def RetentionDisk.perform [DecidableEq δ] [DecidableEq φ] (disk : RetentionDisk δ φ) :
    (e : RetentionEffect δ) → e.Answer δ φ × RetentionDisk δ φ
  | .look => (disk, disk)
  | .openStaging => (⟨⟩, { disk with stagedBytes := 0, stagedLinked := false })
  | .writeStaging bytes =>
    (⟨⟩, { disk with stagedBytes := disk.stagedBytes + bytes, free := disk.free - bytes })
  | .linkObject sourceSha256 object =>
    if (disk.objects sourceSha256).isSome then (false, disk)
    else (true, { disk with
      objects := Function.update disk.objects sourceSha256 (some object), stagedLinked := true })
  | .unlinkStaging =>
    (⟨⟩, { disk with
      free := disk.free + if disk.stagedLinked then 0 else disk.stagedBytes
      stagedBytes := 0
      stagedLinked := false })
  | .linkManifest key manifest =>
    if (disk.manifests key).isSome then (false, disk)
    else (true, { disk with
      manifests := Function.update disk.manifests key (some (.digested manifest true)) })
  | .unlinkSource path =>
    let freed := if disk.backupFilesystem = disk.archiveFilesystem then
      (disk.sources.lookup path).elim 0 fun file => file.content.length else 0
    (⟨⟩, { disk with sources := disk.sources.erase path, free := disk.free + freed })
  | .removeEmptyDirectories generation =>
    ((disk.directories.filter (disk.EmptyIn generation ·)).length,
      { disk with directories := disk.directories.filter (¬ disk.EmptyIn generation ·) })
  | .writeReport report => (⟨⟩, { disk with report := some report })

def retentionDevice (δ φ : Type) [DecidableEq δ] [DecidableEq φ] :
    Device (RetentionEffect δ) (RetentionEffect.Answer δ φ) Unit (RetentionDisk δ φ) :=
  ⟨fun e _ disk => disk.perform e⟩

/-! ## The checks -/

/-- `hashlib.sha256`, the sizes of the pieces in which `gzip.GzipFile` writes a content, and
`reject_sensitive_data`. -/
structure Codec (δ : Type) where
  sha256 : List UInt8 → δ
  gzip : List UInt8 → List ℕ
  reject : String → Bool

variable [DecidableEq δ]

/-- The restored content is the one that the item names. -/
def verifyContent (c : Codec δ) (item : BackupFile δ) (content : List UInt8) :
    Except String Unit :=
  if content.length ≠ item.logicalBytes ∨ c.sha256 content ≠ item.sourceSha256 then
    .error "archive restore verification failed"
  else .ok ⟨⟩

/-- `_verify_gzip_object` of the object under the digest of the item. -/
def verifyObject (c : Codec δ) (item : BackupFile δ) (disk : RetentionDisk δ φ) :
    Except String ℕ :=
  match disk.objects item.sourceSha256 with
  | none => .error "archive object is unsafe"
  | some object =>
    match object.restored with
    | none => .error "archive restore verification failed"
    | some content => do
      verifyContent c item content
      .ok object.storedBytes

/-- The constant members aside, what `_load_file_manifest` expects. -/
def FileManifest.IsFor (manifest : FileManifest δ) (item : BackupFile δ) : Prop :=
  manifest.generation = item.generation ∧ manifest.sourceRef = item.sourceRef ∧
    manifest.sourceSha256 = item.sourceSha256 ∧ manifest.logicalBytes = item.logicalBytes ∧
    manifest.objectSha256 = item.sourceSha256

instance isForDecidable (manifest : FileManifest δ) (item : BackupFile δ) :
    Decidable (manifest.IsFor item) := inferInstanceAs (Decidable (_ ∧ _))

/-- `_load_file_manifest`. -/
def loadFileManifest (item : BackupFile δ) (disk : RetentionDisk δ φ) :
    Except String (Option (FileManifest δ)) :=
  match disk.manifests (item.sourceRef, item.sourceSha256) with
  | none => .ok none
  | some .unreadable => .error "archive file manifest is unreadable"
  | some (.digested manifest _) =>
    if manifest.IsFor item then .ok (some manifest)
    else .error "archive file manifest verification failed"

/-- `_verify_plan_roots`. -/
def verifyPlanRoots [DecidableEq φ] (plan : BackupRetentionPlan δ φ) (disk : RetentionDisk δ φ) :
    Except String Unit :=
  if disk.backupFilesystem ≠ plan.backupFilesystem ∨
      disk.archiveFilesystem ≠ plan.archiveFilesystem then
    .error "cleanup plan root identity changed"
  else .ok ⟨⟩

/-- What `_verify_plan_inventory` checks of one planned file. -/
def verifyItem (c : Codec δ) (plan : BackupRetentionPlan δ φ) (disk : RetentionDisk δ φ)
    (item : BackupFile δ) : Except String Unit := do
  let path ← safeRelative c.reject item.sourceRef
  match disk.sources.lookup path with
  | some file =>
    if file.content.length ≠ item.logicalBytes ∨ file.mtimeNs ≠ item.mtimeNs then
      .error "planned backup source metadata changed"
    else if c.sha256 file.content ≠ item.sourceSha256 then
      .error "planned backup source content changed"
    else .ok ⟨⟩
  | none =>
    if item.generation ∈ plan.retainUnpackedGenerations then
      .error "retained generation is incomplete"
    else do
      match ← loadFileManifest item disk with
      | none => .error "planned source vanished without archive proof"
      | some _ => .ok ⟨⟩

/-- `_verify_plan_inventory`. -/
def verifyPlanInventory (c : Codec δ) (plan : BackupRetentionPlan δ φ) (disk : RetentionDisk δ φ) :
    Except String Unit :=
  if ∃ p ∈ disk.sources.keys, p.parts.length < 2 then
    .error "backup root contains an unmanaged root file"
  else if ∃ p ∈ disk.sources.keys, p.asPosix ∉ plan.files.map (·.sourceRef) then
    .error "backup root gained an unplanned file"
  else plan.files.forM (verifyItem c plan disk)

def gzipUpperBound (logicalBytes : ℕ) : ℕ :=
  logicalBytes + logicalBytes / 2 ^ 12 + logicalBytes / 2 ^ 14 + logicalBytes / 2 ^ 25 + 64

/-- The variables of the loop of `_verify_capacity`. -/
structure CapacityTally (δ : Type) where
  availableDelta : ℤ := 0
  peakNewBytes : ℤ := 0
  availableObjects : List δ
  deriving DecidableEq

/-- One round of the loop. -/
def CapacityTally.add (c : Codec δ) (disk : RetentionDisk δ φ) (tally : CapacityTally δ)
    (item : BackupFile δ) : Except String (CapacityTally δ) := do
  let path ← safeRelative c.reject item.sourceRef
  let sourceExists := (disk.sources.lookup path).isSome
  if item.sourceSha256 ∈ tally.availableObjects then
    .ok (if sourceExists then
      { tally with availableDelta := tally.availableDelta + item.logicalBytes } else tally)
  else if ¬ sourceExists then .error "missing source lacks an archive object"
  else
    let objectBound : ℤ := gzipUpperBound item.logicalBytes
    .ok
      { availableDelta := tally.availableDelta + (item.logicalBytes - objectBound)
        peakNewBytes := max tally.peakNewBytes (objectBound - tally.availableDelta)
        availableObjects := item.sourceSha256 :: tally.availableObjects }

/-- The digests of the plan under which the archive has an object. -/
def archivedDigests (plan : BackupRetentionPlan δ φ) (disk : RetentionDisk δ φ) : List δ :=
  (plan.files.map (·.sourceSha256)).filter fun d => (disk.objects d).isSome

/-- `_verify_capacity`. -/
def verifyCapacity (c : Codec δ) (plan : BackupRetentionPlan δ φ) (disk : RetentionDisk δ φ) :
    Except String Unit := do
  let tally ← plan.candidates.foldlM (CapacityTally.add c disk)
    { availableObjects := archivedDigests plan disk }
  if disk.free - tally.peakNewBytes < plan.minFreeBytes then
    .error "archive filesystem lacks conservative free-space budget"
  else .ok ⟨⟩

/-! ## The run -/

/-- Programs over the disk that may raise. -/
abbrev Retention (δ φ α : Type) := Prog (RetentionEffect δ) (RetentionEffect.Answer δ φ) String α

def look : Retention δ φ (RetentionDisk δ φ) := Prog.perform RetentionEffect.look

/-- `_ensure_object`: the stored size, and whether the object is new. -/
def ensureObject (c : Codec δ) (item : BackupFile δ) (content : List UInt8) :
    Retention δ φ (ℕ × Bool) := do
  let disk ← look
  if (disk.objects item.sourceSha256).isSome then
    let stored ← Prog.ofExcept (verifyObject c item disk)
    return (stored, false)
  else
    Prog.perform RetentionEffect.openStaging
    Prog.finallyDo (do
      Prog.forEach (fun _ bytes => Prog.perform (RetentionEffect.writeStaging bytes)) PUnit.unit
        (c.gzip content)
      Prog.ofExcept (verifyContent c item content)
      let stored := (c.gzip content).sum
      let linked : Bool ← Prog.perform (RetentionEffect.linkObject item.sourceSha256 ⟨some content, stored⟩)
      if linked then return (stored, true)
      else
        let disk ← look
        let stored ← Prog.ofExcept (verifyObject c item disk)
        return (stored, false))
      (Prog.perform RetentionEffect.unlinkStaging)

/-- `_file_manifest_payload`. -/
def fileManifestPayload (item : BackupFile δ) (storedBytes : ℕ) : FileManifest δ where
  generation := item.generation
  sourceRef := item.sourceRef
  sourceSha256 := item.sourceSha256
  logicalBytes := item.logicalBytes
  objectSha256 := item.sourceSha256
  storedBytes := storedBytes

/-- `_ensure_file_manifest`. -/
def ensureFileManifest (item : BackupFile δ) (storedBytes : ℕ) : Retention δ φ Unit := do
  let key := (item.sourceRef, item.sourceSha256)
  let value := fileManifestPayload item storedBytes
  let linked : Bool ← Prog.perform (RetentionEffect.linkManifest key value)
  if linked then return ⟨⟩
  else
    let disk ← look
    if disk.manifests key = some (.digested value true) then return ⟨⟩
    else .raise "immutable archive metadata differs"

/-- The counters of the loop. -/
structure ApplyCounts (δ : Type) where
  changed : ℕ := 0
  already : ℕ := 0
  created : ℕ := 0
  reused : ℕ := 0
  reclaimed : ℕ := 0
  storedByDigest : List (δ × ℕ) := []

/-- `stored_by_digest[digest] = stored`. -/
def ApplyCounts.store (counts : ApplyCounts δ) (digest : δ) (stored : ℕ) : ApplyCounts δ :=
  { counts with
    storedByDigest := (digest, stored) :: counts.storedByDigest.filter (·.1 ≠ digest) }

/-- One round of the loop. -/
def applyItem (c : Codec δ) (failAfterFiles : Option ℕ) (counts : ApplyCounts δ)
    (item : BackupFile δ) : Retention δ φ (ApplyCounts δ) := do
  let path ← Prog.ofExcept (safeRelative c.reject item.sourceRef)
  let disk ← look
  match disk.sources.lookup path with
  | none =>
    match ← Prog.ofExcept (loadFileManifest item disk) with
    | none => .raise "missing source lacks archive proof"
    | some _ =>
      let stored ← Prog.ofExcept (verifyObject c item disk)
      let counts := counts.store item.sourceSha256 stored
      return { counts with already := counts.already + 1 }
  | some file =>
    let (stored, wasCreated) ← ensureObject c item file.content
    ensureFileManifest item stored
    Prog.perform (RetentionEffect.unlinkSource path)
    let counts := { counts.store item.sourceSha256 stored with
      changed := counts.changed + 1
      created := counts.created + wasCreated.toNat
      reused := counts.reused + (!wasCreated).toNat
      reclaimed := counts.reclaimed + item.logicalBytes }
    if failAfterFiles.any (· ≤ counts.changed) then
      .raise "synthetic interruption after verified removal"
    else return counts

/-- `apply_retention_plan` from the checks under the lock on; the same checks before the lock only
refuse earlier. -/
def applyRetentionPlan [DecidableEq φ] (c : Codec δ) (plan : BackupRetentionPlan δ φ)
    (failAfterFiles : Option ℕ) : Retention δ φ ApplyReport := do
  let disk ← look
  Prog.ofExcept (verifyPlanRoots plan disk)
  Prog.ofExcept (verifyPlanInventory c plan disk)
  Prog.ofExcept (verifyCapacity c plan disk)
  let counts ← Prog.forEach (applyItem c failAfterFiles) {} plan.candidates
  let removed ← Prog.forEach
    (fun (removed : ℕ) generation => do
      let (count : ℕ) ← Prog.perform (RetentionEffect.removeEmptyDirectories generation)
      return removed + count)
    0 (sortOn id plan.archiveRemoveGenerations.dedup)
  let report : ApplyReport :=
    { changedFiles := counts.changed
      alreadyAppliedFiles := counts.already
      removedDirectories := removed
      logicalBytesReclaimed := counts.reclaimed
      archiveObjectsCreated := counts.created
      archiveObjectsReused := counts.reused
      archiveStoredBytes := (counts.storedByDigest.map Prod.snd).sum }
  if counts.changed ≠ 0 ∨ removed ≠ 0 then
    Prog.perform (RetentionEffect.writeReport report)
  return report

/-- `verify_archive`, the counters aside. -/
def verifyArchive [DecidableEq φ] (c : Codec δ) (plan : BackupRetentionPlan δ φ)
    (disk : RetentionDisk δ φ) : Except String Unit := do
  verifyPlanRoots plan disk
  let _ ← plan.candidates.foldlM (fun (verified : List δ) item => do
      match ← loadFileManifest item disk with
      | none => .error "archive file manifest is missing"
      | some _ =>
        if item.sourceSha256 ∈ verified then .ok verified
        else do
          let _ ← verifyObject c item disk
          .ok (item.sourceSha256 :: verified)) []
  return ⟨⟩

/-- What a process does under the lock. -/
def retentionBody [DecidableEq φ] (c : Codec δ) (plan : BackupRetentionPlan δ φ)
    (failAfterFiles : Option ℕ) : Retention δ φ Unit :=
  (applyRetentionPlan c plan failAfterFiles).bind fun _ => .ret ⟨⟩

end ResearchLab.BackupRetention
