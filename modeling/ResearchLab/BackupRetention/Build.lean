import Mathlib
import ResearchLab.Foundation.Grouping
import ResearchLab.BackupRetention.Lossless

/-!
# Building a plan

`build_retention_plan` hashes the tree of the backup root. The plan passes the checks that a plan
from elsewhere has to pass, and describes the tree.
-/
namespace ResearchLab.BackupRetention

open Foundation

variable {δ φ : Type} {c : Codec δ} {disk : RetentionDisk δ φ}

/-! ## The tree -/

/-- The first part of a path. -/
def SourcePath.generation (p : SourcePath) : String := String.ofList (p.parts.headD [])

/-- The generations: the directories right under the root, by name. -/
def generationNames (disk : RetentionDisk δ φ) : List String :=
  sortOn id ((disk.directories.filter fun dir => dir.parts.length = 1).map (·.generation))

/-- The files of a generation, by path. -/
def filesUnder (disk : RetentionDisk δ φ) (generation : String) :
    List ((_ : SourcePath) × SourceFile) :=
  sortOn (·.1.asPosix) (disk.sources.entries.filter fun entry => entry.1.generation = generation)

/-- A directory is listed once, and every file below a generation lies in one of those listed. -/
structure RetentionDisk.Listed (disk : RetentionDisk δ φ) : Prop where
  nodup : disk.directories.Nodup
  covered : ∀ p ∈ disk.sources.keys, 2 ≤ p.parts.length →
    ∃ dir ∈ disk.directories, dir.parts = p.parts.take 1

/-- No file was modified before 1970. -/
def RetentionDisk.Dated (disk : RetentionDisk δ φ) : Prop :=
  ∀ entry ∈ disk.sources.entries, 0 ≤ entry.2.mtimeNs

/-! ## The plan -/

/-- The entry of a hashed file. -/
def fileOf (c : Codec δ) (generation : String) (entry : (_ : SourcePath) × SourceFile) :
    BackupFile δ where
  sourceRef := entry.1.asPosix
  generation := generation
  logicalBytes := entry.2.content.length
  mtimeNs := entry.2.mtimeNs
  sourceSha256 := c.sha256 entry.2.content

def buildFile (c : Codec δ) (generation : String) (entry : (_ : SourcePath) × SourceFile) :
    Except String (BackupFile δ) := do
  let _ ← safeRelative c.reject entry.1.asPosix
  .ok (fileOf c generation entry)

def buildGeneration (retain generation : String) (items : List (BackupFile δ)) :
    BackupGeneration where
  generation := generation
  completeGeneration := isCompleteGeneration (items.map (·.sourceRef))
  newestMtimeNs := (items.map (·.mtimeNs)).foldl max 0
  logicalBytes := totalBytes items
  fileCount := items.length
  disposition := if generation = retain then "retain_unpacked" else "archive_then_remove"

/-- The plan of the hashed files and the rows of their generations. -/
def assemblePlan [DecidableEq δ] (disk : RetentionDisk δ φ) (retain : String)
    (maxBackupBytes minFreeBytes : ℕ) (rows : List BackupGeneration)
    (hashed : List (BackupFile δ)) : BackupRetentionPlan δ φ :=
  let files := sortOn (·.sourceRef) hashed
  let archiveFiles := files.filter (·.generation ≠ retain)
  { backupFilesystem := disk.backupFilesystem
    archiveFilesystem := disk.archiveFilesystem
    retainUnpackedGenerations := [retain]
    archiveRemoveGenerations := sortOn id ((rows.map (·.generation)).filter (· ≠ retain))
    generations := sortOn (·.generation) rows
    files := files
    sourceLogicalBytes := totalBytes files
    retainedLogicalBytes := totalBytes (files.filter (·.generation = retain))
    reclaimCandidateBytes := totalBytes archiveFiles
    uniqueArchiveLogicalBytes := totalBytes (firstByDigest archiveFiles)
    maxBackupBytes := maxBackupBytes
    minFreeBytes := minFreeBytes }

/-- `build_retention_plan`. -/
def buildRetentionPlan [DecidableEq δ] (c : Codec δ) (disk : RetentionDisk δ φ) (retain : String)
    (maxBackupBytes minFreeBytes : ℕ) : Except String (BackupRetentionPlan δ φ) := do
  if maxBackupBytes = 0 ∨ minFreeBytes = 0 then .error "storage budgets must be positive"
  else if ∃ p ∈ disk.sources.keys, p.parts.length < 2 then
    .error "backup root contains an unmanaged root file"
  else if generationNames disk = [] then .error "backup root has no generations"
  else do
    let items ← (generationNames disk).mapM fun generation =>
      (filesUnder disk generation).mapM (buildFile c generation)
    let rows := ((generationNames disk).zip items).map fun row => buildGeneration retain row.1 row.2
    let retained := rows.filter (·.generation = retain)
    if retained.length ≠ 1 ∨ ∃ row ∈ retained, ¬ row.completeGeneration then
      .error "retained generation is absent or incomplete"
    else .ok (assemblePlan disk retain maxBackupBytes minFreeBytes rows items.flatten)

/-! ## What it contains -/

theorem sort_mem_filesUnder {generation : String} {entry : (_ : SourcePath) × SourceFile} :
    entry ∈ filesUnder disk generation ↔
      entry ∈ disk.sources.entries ∧ entry.1.generation = generation := by
  simp [filesUnder, mem_sortOn]

theorem buildFile_eq_ok {generation : String} {entry : (_ : SourcePath) × SourceFile}
    {item : BackupFile δ} (h : buildFile c generation entry = .ok item) :
    item = fileOf c generation entry ∧
      safeRelative c.reject entry.1.asPosix = .ok (SourcePath.ofRef entry.1.asPosix) := by
  obtain ⟨relative, hrelative, h⟩ := bind_eq_ok.1 h
  obtain ⟨rfl, -⟩ := safeRelative_eq_ok hrelative
  exact ⟨(Except.ok.inj h).symm, hrelative⟩

/-- The entries of the plan, one generation after another. -/
def plannedFiles (c : Codec δ) (disk : RetentionDisk δ φ) : List (BackupFile δ) :=
  (generationNames disk).flatMap fun generation =>
    (filesUnder disk generation).map (fileOf c generation)


theorem eq_map_of_mapM {names : List String} {items : List (List (BackupFile δ))}
    (h : (names.mapM fun generation => (filesUnder disk generation).mapM (buildFile c generation)) =
      .ok items) :
    items = names.map (fun generation => (filesUnder disk generation).map (fileOf c generation)) ∧
      ∀ generation ∈ names, ∀ entry ∈ filesUnder disk generation,
        safeRelative c.reject entry.1.asPosix = .ok (SourcePath.ofRef entry.1.asPosix) :=
  mapM_eq_map (fun _ _ => mapM_eq_map fun _ _ => buildFile_eq_ok) h

theorem generation_toList (p : SourcePath) : p.generation.toList = p.parts.headD [] := by
  simp [SourcePath.generation]

theorem generation_ne_empty {p : SourcePath} (hp : p.parts ≠ []) : p.generation ≠ "" := by
  obtain ⟨part, rest, hparts⟩ := List.exists_cons_of_ne_nil hp
  have hpart := (p.proper part (by simp [hparts])).1
  intro h
  have := congrArg String.toList h
  simp [generation_toList, hparts, hpart] at this

/-- Directories right under the root have names of their own. -/
theorem nodup_generationNames (h : disk.Listed) : (generationNames disk).Nodup := by
  refine (sortOn_perm id _).nodup_iff.2 (List.Nodup.map_on ?_ (h.nodup.filter _))
  intro d hd d' hd' hsame
  obtain ⟨part, hpart⟩ := List.length_eq_one_iff.1 (of_decide_eq_true (List.mem_filter.1 hd).2)
  obtain ⟨part', hpart'⟩ := List.length_eq_one_iff.1 (of_decide_eq_true (List.mem_filter.1 hd').2)
  have hnames := congrArg String.toList hsame
  rw [generation_toList, generation_toList, hpart, hpart'] at hnames
  obtain rfl : part = part' := hnames
  cases d
  cases d'
  simp_all

theorem ne_empty_of_mem_names {name : String} (h : name ∈ generationNames disk) : name ≠ "" := by
  obtain ⟨dir, hdir, rfl⟩ := List.mem_map.1 (mem_sortOn.1 h)
  have hlength := of_decide_eq_true (List.mem_filter.1 hdir).2
  exact generation_ne_empty fun hnil => by simp [hnil] at hlength

theorem mem_entries_keys {p : SourcePath} :
    p ∈ disk.sources.keys ↔ ∃ entry ∈ disk.sources.entries, entry.1 = p := by
  simp only [AList.keys, List.keys, List.mem_map]

/-- The generation of a file is one of the generations. -/
theorem generation_mem_names (h : disk.Listed) {entry : (_ : SourcePath) × SourceFile}
    (hentry : entry ∈ disk.sources.entries) (hlong : 2 ≤ entry.1.parts.length) :
    entry.1.generation ∈ generationNames disk := by
  obtain ⟨dir, hdir, hparts⟩ := h.covered entry.1 (mem_entries_keys.2 ⟨entry, hentry, rfl⟩) hlong
  refine mem_sortOn.2 (List.mem_map.2 ⟨dir, List.mem_filter.2 ⟨hdir, ?_⟩, ?_⟩)
  · simp [hparts]
    omega
  · rw [SourcePath.generation, SourcePath.generation, hparts]
    cases hp : entry.1.parts with
    | nil => simp [hp] at hlong
    | cons part rest => rfl

theorem mem_plannedFiles (h : disk.Listed) (hlong : ∀ p ∈ disk.sources.keys, 2 ≤ p.parts.length)
    {item : BackupFile δ} : item ∈ plannedFiles c disk ↔
      ∃ entry ∈ disk.sources.entries, item = fileOf c entry.1.generation entry := by
  simp only [plannedFiles, List.mem_flatMap, List.mem_map, sort_mem_filesUnder]
  constructor
  · rintro ⟨_, -, entry, ⟨hentry, rfl⟩, rfl⟩
    exact ⟨entry, hentry, rfl⟩
  · rintro ⟨entry, hentry, rfl⟩
    have hlength := hlong _ (mem_entries_keys.2 ⟨entry, hentry, rfl⟩)
    exact ⟨_, generation_mem_names h hentry hlength, entry, ⟨hentry, rfl⟩, rfl⟩

theorem path_fileOf {entry : (_ : SourcePath) × SourceFile} (hlong : 2 ≤ entry.1.parts.length)
    (generation : String) : (fileOf c generation entry).path = entry.1 :=
  SourcePath.ofRef_asPosix fun hnil => by simp [hnil] at hlong

/-- Every file of the tree is planned once. -/
theorem nodup_paths (h : disk.Listed) (hlong : ∀ p ∈ disk.sources.keys, 2 ≤ p.parts.length) :
    ((plannedFiles c disk).map (·.path)).Nodup := by
  have hkeys : ∀ generation, ((filesUnder disk generation).map Sigma.fst).Nodup := by
    intro generation
    refine (List.Perm.map _ (sortOn_perm _ _)).nodup_iff.2 ?_
    exact disk.sources.nodupKeys.sublist List.filter_sublist
  have hpaths : (plannedFiles c disk).map (·.path) =
      (generationNames disk).flatMap fun generation =>
        (filesUnder disk generation).map Sigma.fst := by
    rw [plannedFiles, List.map_flatMap]
    refine List.flatMap_congr fun generation _ => ?_
    rw [List.map_map]
    refine List.map_congr_left fun entry hentry => ?_
    obtain ⟨hentry, -⟩ := sort_mem_filesUnder.1 hentry
    exact path_fileOf (hlong _ (mem_entries_keys.2 ⟨entry, hentry, rfl⟩)) generation
  rw [hpaths, List.nodup_flatMap]
  refine ⟨fun generation _ => hkeys generation, (nodup_generationNames h).imp ?_⟩
  intro g g' hne p hp hp'
  obtain ⟨entry, hentry, rfl⟩ := List.mem_map.1 hp
  obtain ⟨entry', hentry', hsame⟩ := List.mem_map.1 hp'
  have hg := (sort_mem_filesUnder.1 hentry).2
  have hg' := (sort_mem_filesUnder.1 hentry').2
  exact hne (by rw [← hg, ← hg', hsame])

/-! ## What it passes -/

/-- The files of a generation in the plan are those of the tree. -/
theorem files_of_generation (h : disk.Listed) {generation : String}
    (hmem : generation ∈ generationNames disk) :
    ((sortOn (·.sourceRef) (plannedFiles c disk)).filter (·.generation = generation)).Perm
      ((filesUnder disk generation).map (fileOf c generation)) := by
  refine ((sortOn_perm _ _).filter _).trans (.of_eq ?_)
  rw [plannedFiles, filter_flatMap_of_nodup (a := generation) (nodup_generationNames h)]
  · rw [if_pos hmem, List.filter_eq_self]
    intro item hitem
    obtain ⟨entry, -, rfl⟩ := List.mem_map.1 hitem
    simp [fileOf]
  · intro other _ hne
    rw [List.filter_eq_nil_iff]
    intro item hitem
    obtain ⟨entry, -, rfl⟩ := List.mem_map.1 hitem
    simp [fileOf, hne]

theorem totalBytes_perm {items items' : List (BackupFile δ)} (h : items.Perm items') :
    totalBytes items = totalBytes items' := (h.map _).sum_eq

theorem newest_perm {items items' : List (BackupFile δ)} (h : items.Perm items') :
    (items.map (·.mtimeNs)).foldl max 0 = (items'.map (·.mtimeNs)).foldl max 0 :=
  (h.map _).foldl_eq 0

theorem isComplete_perm {refs refs' : List String} (h : refs.Perm refs') :
    isCompleteGeneration refs = isCompleteGeneration refs' := by
  have hmem : ∀ name, (refs.map fun value => (SourcePath.ofRef value).parts[1]?).contains name =
      (refs'.map fun value => (SourcePath.ofRef value).parts[1]?).contains name := fun name =>
    Bool.eq_iff_iff.2 (by simp only [List.contains_iff_mem, (h.map _).mem_iff])
  simp only [isCompleteGeneration, hmem]

/-- The aggregates of a generation do not depend on the order of its files. -/
theorem buildGeneration_perm (retain generation : String) {items items' : List (BackupFile δ)}
    (h : items.Perm items') :
    buildGeneration retain generation items = buildGeneration retain generation items' := by
  simp only [buildGeneration, isComplete_perm (h.map _), newest_perm h, totalBytes_perm h,
    h.length_eq]

theorem newest_nonneg (items : List (BackupFile δ)) : 0 ≤ (items.map (·.mtimeNs)).foldl max 0 := by
  suffices h : ∀ (l : List ℤ) (a : ℤ), a ≤ l.foldl max a from h _ 0
  intro l
  induction l with
  | nil => exact fun a => le_rfl
  | cons x l ih => exact fun a => (le_max_left a x).trans (ih (max a x))

/-- The build starts from 0 where the check takes the greatest time itself. -/
theorem newest_eq_max {items : List (BackupFile δ)} (h : ∀ item ∈ items, 0 ≤ item.mtimeNs) :
    (items.map (·.mtimeNs)).foldl max 0 = (items.map (·.mtimeNs)).max?.getD 0 := by
  cases items with
  | nil => rfl
  | cons item items =>
    rw [List.map_cons, List.foldl_cons, max_eq_right (h item List.mem_cons_self), List.max?_cons']
    rfl

theorem checkGeneration_build (plan : BackupRetentionPlan δ φ) {retain generation : String}
    (hretain : plan.retainUnpackedGenerations = [retain]) {items : List (BackupFile δ)}
    (hdated : ∀ item ∈ items, 0 ≤ item.mtimeNs)
    (hitems : (plan.files.filter (·.generation = generation)).Perm items) :
    checkGeneration plan (buildGeneration retain generation items) = .ok ⟨⟩ := by
  have hnewest := newest_eq_max fun item hitem => hdated item (hitems.mem_iff.1 hitem)
  rw [← buildGeneration_perm retain generation hitems]
  simp [checkGeneration, buildGeneration, hretain, hnewest]

/-! ## The built plan -/

/-- The rows of the generations of the tree. -/
def plannedRows (c : Codec δ) (disk : RetentionDisk δ φ) (retain : String) :
    List BackupGeneration :=
  (generationNames disk).map fun generation =>
    buildGeneration retain generation ((filesUnder disk generation).map (fileOf c generation))

@[simp] theorem map_generation_plannedRows (retain : String) :
    (plannedRows c disk retain).map (·.generation) = generationNames disk := by
  simp [plannedRows, buildGeneration, Function.comp_def]

variable {plan : BackupRetentionPlan δ φ} {retain : String} {maxBackupBytes minFreeBytes : ℕ}

/-- What the build checks of the tree. -/
structure Buildable (c : Codec δ) (disk : RetentionDisk δ φ) (retain : String)
    (maxBackupBytes minFreeBytes : ℕ) : Prop where
  budgets : 0 < maxBackupBytes ∧ 0 < minFreeBytes
  long : ∀ p ∈ disk.sources.keys, 2 ≤ p.parts.length
  retained : retain ∈ generationNames disk
  safe : ∀ generation ∈ generationNames disk, ∀ entry ∈ filesUnder disk generation,
    safeRelative c.reject entry.1.asPosix = .ok (SourcePath.ofRef entry.1.asPosix)

theorem nodup_refs (h : disk.Listed) (hlong : ∀ p ∈ disk.sources.keys, 2 ≤ p.parts.length) :
    ((plannedFiles c disk).map (·.sourceRef)).Nodup := by
  have hpaths : (((plannedFiles c disk).map (·.sourceRef)).map SourcePath.ofRef).Nodup := by
    rw [List.map_map]
    exact nodup_paths h hlong
  exact hpaths.of_map _

theorem checkFile_planned (h : disk.Listed) (hdated : disk.Dated)
    (hb : Buildable c disk retain maxBackupBytes minFreeBytes) :
    ∀ item ∈ plannedFiles c disk, checkFile c.reject item = .ok ⟨⟩ := by
  intro item hitem
  obtain ⟨entry, hentry, rfl⟩ := (mem_plannedFiles h hb.long).1 hitem
  have hlength := hb.long _ (mem_entries_keys.2 ⟨entry, hentry, rfl⟩)
  have hsafe := hb.safe _ (generation_mem_names h hentry hlength) entry
    (sort_mem_filesUnder.2 ⟨hentry, rfl⟩)
  refine bind_eq_ok.2 ⟨_, hsafe, ?_⟩
  rw [check_eq_ok, not_or, not_not, not_lt]
  refine ⟨⟨?_, hdated entry hentry⟩, rfl⟩
  obtain ⟨part, rest, hparts⟩ := List.exists_cons_of_ne_nil (l := entry.1.parts) fun hnil => by
    simp [hnil] at hlength
  rw [SourcePath.ofRef_asPosix (by simp [hparts])]
  simp [fileOf, generation_toList, hparts]

variable [DecidableEq δ]

theorem buildRetentionPlan_eq_ok
    (h : buildRetentionPlan c disk retain maxBackupBytes minFreeBytes = .ok plan) :
    Buildable c disk retain maxBackupBytes minFreeBytes ∧
      plan = assemblePlan disk retain maxBackupBytes minFreeBytes (plannedRows c disk retain)
        (plannedFiles c disk) := by
  simp only [buildRetentionPlan, check_eq_ok] at h
  obtain ⟨hbudgets, hlong, -, h⟩ := h
  obtain ⟨items, hitems, h⟩ := bind_eq_ok.1 h
  obtain ⟨rfl, hsafe⟩ := eq_map_of_mapM hitems
  have hrows : ((generationNames disk).zip ((generationNames disk).map fun generation =>
      (filesUnder disk generation).map (fileOf c generation))).map
        (fun row => buildGeneration retain row.1 row.2) = plannedRows c disk retain := by
    rw [List.zip_eq_zipWith, List.zipWith_map_right, List.zipWith_self, List.map_map]
    rfl
  rw [hrows, check_eq_ok, not_or, not_not] at h
  obtain ⟨⟨hone, -⟩, h⟩ := h
  refine ⟨⟨?_, ?_, ?_, hsafe⟩, ?_⟩
  · omega
  · intro p hp
    by_contra hshort
    exact hlong ⟨p, hp, not_le.1 hshort⟩
  · obtain ⟨row, hrow⟩ := List.length_eq_one_iff.1 hone
    have hmem : row ∈ (plannedRows c disk retain).filter (·.generation = retain) := by
      rw [hrow]
      exact List.mem_singleton_self row
    obtain ⟨hmem, hretain⟩ := List.mem_filter.1 hmem
    have hname := List.mem_map_of_mem (f := (·.generation)) hmem
    rwa [map_generation_plannedRows, of_decide_eq_true hretain] at hname
  · rw [← Except.ok.inj h, ← List.flatMap_def]
    rfl

theorem mem_archiveRemove {generation : String} :
    generation ∈ (assemblePlan disk retain maxBackupBytes minFreeBytes (plannedRows c disk retain)
      (plannedFiles c disk)).archiveRemoveGenerations ↔
      generation ∈ generationNames disk ∧ generation ≠ retain := by
  simp [assemblePlan, mem_sortOn]

/-- The filter of the plan by the archived generations is the filter of the build. -/
theorem candidates_built (h : disk.Listed)
    (hb : Buildable c disk retain maxBackupBytes minFreeBytes) :
    (assemblePlan disk retain maxBackupBytes minFreeBytes (plannedRows c disk retain)
      (plannedFiles c disk)).candidates =
      (sortOn (·.sourceRef) (plannedFiles c disk)).filter (·.generation ≠ retain) := by
  refine List.filter_congr fun item hitem => ?_
  obtain ⟨entry, hentry, rfl⟩ := (mem_plannedFiles h hb.long).1 (mem_sortOn.1 hitem)
  have hname := generation_mem_names h hentry
    (hb.long _ (mem_entries_keys.2 ⟨entry, hentry, rfl⟩))
  rw [Bool.eq_iff_iff, List.contains_iff_mem, mem_archiveRemove, decide_eq_true_iff]
  exact and_iff_right hname

theorem checkPlan_built (h : disk.Listed) (hdated : disk.Dated)
    (hb : Buildable c disk retain maxBackupBytes minFreeBytes) :
    checkPlan c.reject (assemblePlan disk retain maxBackupBytes minFreeBytes
      (plannedRows c disk retain) (plannedFiles c disk)) = .ok ⟨⟩ := by
  have hnames : ((assemblePlan disk retain maxBackupBytes minFreeBytes
      (plannedRows c disk retain) (plannedFiles c disk)).generations.map (·.generation)).Perm
      (generationNames disk) := by
    rw [← map_generation_plannedRows (c := c) retain]
    exact (sortOn_perm _ _).map _
  have hempty : "" ∉ generationNames disk := fun hmem => ne_empty_of_mem_names hmem rfl
  simp only [checkPlan, check_eq_ok, not_or, not_not, not_exists, not_and]
  refine ⟨⟨?_, ?_, rfl, ?_⟩, ⟨?_, fun row hrow => ?_⟩, ⟨?_, ?_⟩, ?_, ?_, ?_⟩
  · simpa [assemblePlan] using (ne_empty_of_mem_names hb.retained).symm
  · exact fun hmem => hempty (mem_archiveRemove.1 hmem).1
  · intro name hname hmem
    exact (mem_archiveRemove.1 hmem).2 (List.mem_singleton.1 hname)
  · rwa [hnames.mem_iff]
  · obtain ⟨generation, -, rfl⟩ := List.mem_map.1 (mem_sortOn.1 hrow)
    exact not_lt.2 (newest_nonneg _)
  · exact hnames.nodup_iff.2 (nodup_generationNames h)
  · ext name
    rw [List.mem_toFinset, hnames.mem_iff, List.mem_toFinset, List.mem_append, mem_archiveRemove]
    by_cases hname : name = retain
    · subst hname
      simpa [assemblePlan] using hb.retained
    · simp [assemblePlan, hname]
  · exact sortOn_eq_self (sortOn_pairwise _ _)
  · exact ((sortOn_perm _ _).map _).nodup_iff.2 (nodup_refs h hb.long)
  · refine bind_eq_ok.2 ⟨⟨⟩, forM_eq_ok.2 fun item hitem =>
      checkFile_planned h hdated hb item (mem_sortOn.1 hitem), ?_⟩
    refine bind_eq_ok.2 ⟨⟨⟩, forM_eq_ok.2 fun row hrow => ?_, ?_⟩
    · obtain ⟨generation, hgeneration, rfl⟩ := List.mem_map.1 (mem_sortOn.1 hrow)
      refine checkGeneration_build _ rfl (fun item hitem => ?_) (files_of_generation h hgeneration)
      obtain ⟨entry, hentry, rfl⟩ := List.mem_map.1 hitem
      exact hdated entry (sort_mem_filesUnder.1 hentry).1
    · rw [check_eq_ok, candidates_built h hb]
      refine ⟨?_, rfl⟩
      have hbudgets := hb.budgets
      simp [assemblePlan]
      omega

/-- The inventory finds the tree that was hashed. -/
theorem verifyPlanInventory_built (h : disk.Listed)
    (hb : Buildable c disk retain maxBackupBytes minFreeBytes) :
    verifyPlanInventory c (assemblePlan disk retain maxBackupBytes minFreeBytes
      (plannedRows c disk retain) (plannedFiles c disk)) disk = .ok ⟨⟩ := by
  simp only [verifyPlanInventory, check_eq_ok, not_exists, not_and, not_lt, not_not]
  refine ⟨hb.long, fun p hp => ?_, forM_eq_ok.2 fun item hitem => ?_⟩
  · obtain ⟨entry, hentry, rfl⟩ := mem_entries_keys.1 hp
    have hplanned := (mem_plannedFiles (c := c) h hb.long).2 ⟨entry, hentry, rfl⟩
    exact List.mem_map.2 ⟨_, mem_sortOn.2 hplanned, rfl⟩
  · obtain ⟨entry, hentry, rfl⟩ := (mem_plannedFiles h hb.long).1 (mem_sortOn.1 hitem)
    have hlength := hb.long _ (mem_entries_keys.2 ⟨entry, hentry, rfl⟩)
    have hsafe := hb.safe _ (generation_mem_names h hentry hlength) entry
      (sort_mem_filesUnder.2 ⟨hentry, rfl⟩)
    rw [SourcePath.ofRef_asPosix fun hnil => by simp [hnil] at hlength] at hsafe
    have hlookup : disk.sources.lookup entry.1 = some entry.2 := AList.mem_lookup_iff.2 hentry
    refine bind_eq_ok.2 ⟨_, hsafe, ?_⟩
    simp [hlookup, fileOf]

/-- The plan of a tree passes every check that `apply_retention_plan` makes of plan and tree if and
only if no file of the tree was modified before 1970. No two of its files are one file of the file
system, and it lists the tree as it is. -/
theorem built_plan_is_accepted (c : Codec δ) [DecidableEq φ] (disk : RetentionDisk δ φ)
    (hlisted : disk.Listed) (retain : String) (maxBackupBytes minFreeBytes : ℕ)
    (plan : BackupRetentionPlan δ φ)
    (hplan : buildRetentionPlan c disk retain maxBackupBytes minFreeBytes = .ok plan) :
    (checkPlan c.reject plan = .ok ⟨⟩ ↔ disk.Dated) ∧ plan.PathsDistinct ∧
      verifyPlanRoots plan disk = .ok ⟨⟩ ∧ verifyPlanInventory c plan disk = .ok ⟨⟩ := by
  obtain ⟨hb, rfl⟩ := buildRetentionPlan_eq_ok hplan
  refine ⟨⟨fun hcheck entry hentry => ?_, fun hdated => checkPlan_built hlisted hdated hb⟩, ?_, ?_,
    verifyPlanInventory_built hlisted hb⟩
  · exact (checked_of_checkPlan hcheck).dated _
      (mem_sortOn.2 ((mem_plannedFiles hlisted hb.long).2 ⟨entry, hentry, rfl⟩))
  · exact ((sortOn_perm _ _).map _).nodup_iff.2 (nodup_paths hlisted hb.long)
  · simp [verifyPlanRoots, assemblePlan]

/-- A generation to keep and a file to archive. -/
def mixedDisk : RetentionDisk (List UInt8) ℕ where
  backupFilesystem := 1
  archiveFilesystem := 2
  sources := (["keep/raw", "old/b", "keep/logical", "keep/restore"].map fun ref =>
    (⟨.ofRef ref, ⟨[1, 2], 7⟩⟩ : (_ : SourcePath) × SourceFile)).toAList
  directories := [.ofRef "old", .ofRef "keep"]
  objects := fun _ => none
  manifests := fun _ => none
  report := none
  stagedBytes := 0
  stagedLinked := false
  free := 1000

def mixedPlan : BackupRetentionPlan (List UInt8) ℕ where
  backupFilesystem := 1
  archiveFilesystem := 2
  retainUnpackedGenerations := ["keep"]
  archiveRemoveGenerations := ["old"]
  generations := [⟨"keep", true, 7, 6, 3, "retain_unpacked"⟩,
    ⟨"old", false, 7, 2, 1, "archive_then_remove"⟩]
  files := ["keep/logical", "keep/raw", "keep/restore"].map (⟨·, "keep", 2, 7, [1, 2]⟩) ++
    [⟨"old/b", "old", 2, 7, [1, 2]⟩]
  sourceLogicalBytes := 8
  retainedLogicalBytes := 6
  reclaimCandidateBytes := 2
  uniqueArchiveLogicalBytes := 2
  maxBackupBytes := 1000
  minFreeBytes := 10

theorem built_plan_is_accepted_mixed :
    (checkPlan plainCodec.reject mixedPlan = .ok ⟨⟩ ↔ mixedDisk.Dated) ∧ mixedPlan.PathsDistinct ∧
      verifyPlanRoots mixedPlan mixedDisk = .ok ⟨⟩ ∧
      verifyPlanInventory plainCodec mixedPlan mixedDisk = .ok ⟨⟩ :=
  built_plan_is_accepted plainCodec mixedDisk ⟨by decide +kernel, by decide +kernel⟩ "keep" 1000 10
    mixedPlan (by decide +kernel)

end ResearchLab.BackupRetention
