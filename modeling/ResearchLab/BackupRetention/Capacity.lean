import Mathlib
import ResearchLab.BackupRetention.Rounds

/-!
# The free space of the archive during a run

`_verify_capacity` simulates the balance of written objects and removed sources. The simulation is a
recursion over the candidates, and a run pays the recursion off one candidate after another.
-/
namespace ResearchLab.BackupRetention

open Foundation

variable {δ φ : Type} [DecidableEq δ] {c : Codec δ} {plan : BackupRetentionPlan δ φ}
  {disk : RetentionDisk δ φ} {item : BackupFile δ}

/-! ## The simulated balance -/

/-- The space that the candidates take at most before removed sources pay it back, when removing a
source credits so many bytes and the archive has objects under the digests that are `present`. -/
def need (credit : BackupFile δ → ℕ) : List (BackupFile δ) → (δ → Bool) → ℤ
  | [], _ => 0
  | item :: rest, present =>
    if present item.sourceSha256 then max 0 (need credit rest present - credit item)
    else
      let bound : ℤ := gzipUpperBound item.logicalBytes
      max bound (bound - credit item +
        need credit rest (Function.update present item.sourceSha256 true))

variable {credit : BackupFile δ → ℕ} {items rest : List (BackupFile δ)} {present present' : δ → Bool}

theorem need_nonneg (credit : BackupFile δ → ℕ) (items : List (BackupFile δ)) (present : δ → Bool) :
    0 ≤ need credit items present := by
  cases items with
  | nil => exact le_rfl
  | cons item rest =>
    rw [need]
    split
    · exact le_max_left _ _
    · exact (Int.natCast_nonneg _).trans (le_max_left _ _)

theorem need_congr (h : ∀ item ∈ items, present item.sourceSha256 = present' item.sourceSha256) :
    need credit items present = need credit items present' := by
  induction items generalizing present present' with
  | nil => rfl
  | cons item rest ih =>
    have hitem := h item List.mem_cons_self
    have hrest : ∀ other ∈ rest, present other.sourceSha256 = present' other.sourceSha256 :=
      fun other hother => h other (List.mem_cons_of_mem _ hother)
    have hupdated : need credit rest (Function.update present item.sourceSha256 true) =
        need credit rest (Function.update present' item.sourceSha256 true) := by
      refine ih fun other hother => ?_
      by_cases hsame : other.sourceSha256 = item.sourceSha256
      · simp [hsame]
      · simp [hsame, hrest other hother]
    rw [need, need, hitem, ih hrest, hupdated]

/-- What the simulation credits for a file. -/
def sourceCredit (disk : RetentionDisk δ φ) (item : BackupFile δ) : ℕ :=
  if (disk.sources.lookup item.path).isSome then item.logicalBytes else 0

theorem add_eq_ok {tally tally' : CapacityTally δ}
    (h : tally.add c disk item = .ok tally') :
    (item.sourceSha256 ∈ tally.availableObjects ∧
      tally' = { tally with availableDelta := tally.availableDelta + sourceCredit disk item }) ∨
    (item.sourceSha256 ∉ tally.availableObjects ∧ sourceCredit disk item = item.logicalBytes ∧
      tally' =
        { availableDelta := tally.availableDelta +
            (item.logicalBytes - (gzipUpperBound item.logicalBytes : ℤ))
          peakNewBytes := max tally.peakNewBytes
            ((gzipUpperBound item.logicalBytes : ℤ) - tally.availableDelta)
          availableObjects := item.sourceSha256 :: tally.availableObjects }) := by
  obtain ⟨path, hpath, h⟩ := bind_eq_ok.1 h
  obtain ⟨rfl, -⟩ := safeRelative_eq_ok hpath
  by_cases hmem : item.sourceSha256 ∈ tally.availableObjects
  · left
    rw [if_pos hmem] at h
    refine ⟨hmem, (Except.ok.inj h).symm.trans ?_⟩
    unfold sourceCredit BackupFile.path
    split <;> simp
  · right
    rw [if_neg hmem, check_eq_ok, not_not] at h
    exact ⟨hmem, if_pos h.1, (Except.ok.inj h.2).symm⟩

/-- The peak of the simulation, from any balance on. -/
theorem peak_eq {tally tally' : CapacityTally δ}
    (hpeak : -tally.availableDelta ≤ tally.peakNewBytes)
    (h : items.foldlM (CapacityTally.add c disk) tally = .ok tally') :
    tally'.peakNewBytes = max tally.peakNewBytes
      (need (sourceCredit disk) items (fun d => d ∈ tally.availableObjects) -
        tally.availableDelta) := by
  induction items generalizing tally with
  | nil =>
    obtain rfl : tally = tally' := Except.ok.inj h
    simpa [need] using hpeak
  | cons item rest ih =>
    rw [List.foldlM_cons] at h
    obtain ⟨next, hnext, h⟩ := bind_eq_ok.1 h
    have hcredit : (0 : ℤ) ≤ sourceCredit disk item := Int.natCast_nonneg _
    rcases add_eq_ok hnext with ⟨hmem, rfl⟩ | ⟨hmem, hfull, rfl⟩
    · have hih := ih (by simp only; omega) h
      simp only [need, hmem, decide_true, if_true] at hih ⊢
      omega
    · have hbound : (0 : ℤ) ≤ gzipUpperBound item.logicalBytes := Int.natCast_nonneg _
      have hih := ih (by simp only; omega) h
      have hpresent : need (sourceCredit disk) rest
          (fun d => d ∈ item.sourceSha256 :: tally.availableObjects) =
          need (sourceCredit disk) rest
            (Function.update (fun d => decide (d ∈ tally.availableObjects)) item.sourceSha256 true) := by
        refine need_congr fun other _ => ?_
        by_cases hsame : other.sourceSha256 = item.sourceSha256 <;> simp [hsame]
      simp only [need, hmem, decide_false, Bool.false_eq_true, if_false, hfull] at hih ⊢
      rw [hpresent] at hih
      omega

/-! ## The balance of a run -/

/-- The archive has an object under the digest. -/
def RetentionDisk.holds (disk : RetentionDisk δ φ) (d : δ) : Bool := (disk.objects d).isSome

/-- The upper bounds of the objects that the archive does not have yet. -/
def newObjectBytes : List (BackupFile δ) → (δ → Bool) → ℕ
  | [], _ => 0
  | item :: rest, present =>
    if present item.sourceSha256 then newObjectBytes rest present
    else gzipUpperBound item.logicalBytes +
      newObjectBytes rest (Function.update present item.sourceSha256 true)

theorem need_zero (items : List (BackupFile δ)) (present : δ → Bool) :
    need (fun _ => 0) items present = newObjectBytes items present := by
  induction items generalizing present with
  | nil => rfl
  | cons item rest ih =>
    rw [need, newObjectBytes, ih, ih]
    split <;> push_cast <;> omega

/-- Removed sources give their space back to the archive, or it has room for all new objects
without that. -/
def CreditIsReal (plan : BackupRetentionPlan δ φ) (disk : RetentionDisk δ φ) : Prop :=
  (plan.backupFilesystem = plan.archiveFilesystem ∧ plan.PathsDistinct) ∨
    (plan.minFreeBytes + newObjectBytes plan.candidates disk.holds : ℤ) ≤ disk.free

/-- The archive can afford the rest of the candidates. -/
structure Affords (plan : BackupRetentionPlan δ φ) (credit : BackupFile δ → ℕ)
    (rest : List (BackupFile δ)) (disk : RetentionDisk δ φ) : Prop where
  budget : plan.minFreeBytes + need credit rest disk.holds ≤ disk.free
  size : ∀ item ∈ rest, ∀ file ∈ disk.sources.lookup item.path,
    file.content.length = item.logicalBytes
  real : ∀ item ∈ rest, credit item ≠ 0 → disk.backupFilesystem = disk.archiveFilesystem ∧
    ∃ file ∈ disk.sources.lookup item.path, credit item = file.content.length
  distinct : (∀ item ∈ rest, credit item = 0) ∨ (rest.map (·.path)).Nodup

theorem verifyItem_size (h : verifyItem c plan disk item = .ok ⟨⟩) :
    ∀ file ∈ disk.sources.lookup item.path, file.content.length = item.logicalBytes ∧
      c.sha256 file.content = item.sourceSha256 := by
  intro file hfile
  obtain ⟨path, hpath, h⟩ := bind_eq_ok.1 h
  obtain ⟨rfl, -⟩ := safeRelative_eq_ok hpath
  have hlookup : disk.sources.lookup (SourcePath.ofRef item.sourceRef) = some file := hfile
  simp only [hlookup, check_eq_ok, not_or, not_not] at h
  exact ⟨h.1.1, h.2.1⟩

theorem verifyItem_of_inventory (h : verifyPlanInventory c plan disk = .ok ⟨⟩) :
    ∀ item ∈ plan.files, verifyItem c plan disk item = .ok ⟨⟩ := by
  simp only [verifyPlanInventory, check_eq_ok] at h
  exact forM_eq_ok.1 h.2.2

theorem budget_of_capacity (h : verifyCapacity c plan disk = .ok ⟨⟩) :
    plan.minFreeBytes + need (sourceCredit disk) plan.candidates disk.holds ≤ disk.free := by
  obtain ⟨tally, htally, h⟩ := bind_eq_ok.1 h
  have hpeak := peak_eq (by simp) htally
  have hpresent : need (sourceCredit disk) plan.candidates
      (fun d => d ∈ archivedDigests plan disk) =
      need (sourceCredit disk) plan.candidates disk.holds := by
    refine need_congr fun item hitem => ?_
    have hmem : item.sourceSha256 ∈ plan.files.map (·.sourceSha256) :=
      List.mem_map_of_mem (List.mem_of_mem_filter hitem)
    simp only [archivedDigests, List.mem_filter, hmem, true_and, RetentionDisk.holds,
      Bool.decide_eq_true]
  rw [check_eq_ok, not_lt] at h
  rw [hpresent] at hpeak
  have := need_nonneg (sourceCredit disk) plan.candidates disk.holds
  simp only [sub_zero] at hpeak
  omega

/-- The space after an object is stored. -/
theorem free_store (hgzip : ∀ content, (c.gzip content).sum ≤ gzipUpperBound content.length)
    {file : SourceFile} (h : Affords plan credit (item :: rest) disk)
    (hfile : file ∈ disk.sources.lookup item.path) :
    plan.minFreeBytes ≤ (disk.store c item file.content).free ∧
    plan.minFreeBytes + need credit rest (disk.store c item file.content).holds - credit item ≤
      (disk.store c item file.content).free := by
  have hbudget := h.budget
  have hbound : ((c.gzip file.content).sum : ℤ) ≤ gzipUpperBound item.logicalBytes := by
    rw [← h.size item List.mem_cons_self file hfile]
    exact_mod_cast hgzip file.content
  rw [need] at hbudget
  by_cases hholds : disk.holds item.sourceSha256 = true
  · rw [RetentionDisk.store_of_isSome hholds]
    rw [if_pos hholds] at hbudget
    omega
  · have hupdate : (disk.store c item file.content).holds =
        Function.update disk.holds item.sourceSha256 true := by
      funext d
      rw [RetentionDisk.holds, RetentionDisk.store_objects_of_new hholds]
      by_cases hd : d = item.sourceSha256
      · simp [hd]
      · simp [RetentionDisk.holds, hd]
    rw [if_neg hholds] at hbudget
    rw [hupdate, RetentionDisk.store_free_of_new hholds]
    have := need_nonneg credit rest (Function.update disk.holds item.sourceSha256 true)
    dsimp only at hbudget ⊢
    omega

theorem lookup_of_erase {p q : SourcePath} {sources : AList fun _ : SourcePath => SourceFile}
    {file : SourceFile} (h : file ∈ (sources.erase p).lookup q) : file ∈ sources.lookup q := by
  by_cases hpq : q = p
  · rw [hpq, AList.lookup_erase] at h
    cases h
  · rwa [AList.lookup_erase_ne hpq] at h

theorem Affords.tail_distinct (h : Affords plan credit (item :: rest) disk) :
    (∀ other ∈ rest, credit other = 0) ∨ (rest.map (·.path)).Nodup := by
  rcases h.distinct with hzero | hnodup
  · exact .inl fun other hother => hzero other (List.mem_cons_of_mem _ hother)
  · exact .inr (List.nodup_cons.1 hnodup).2

theorem Affords.tail (h : Affords plan credit (item :: rest) disk)
    (hgone : disk.sources.lookup item.path = none) (hholds : disk.holds item.sourceSha256 = true) :
    Affords plan credit rest disk := by
  have hcredit : credit item = 0 := by
    by_contra hne
    obtain ⟨-, file, hfile, -⟩ := h.real item List.mem_cons_self hne
    rw [hgone] at hfile
    cases hfile
  refine ⟨?_, fun other hother => h.size other (List.mem_cons_of_mem _ hother),
    fun other hother => h.real other (List.mem_cons_of_mem _ hother), h.tail_distinct⟩
  have hbudget := h.budget
  rw [need, if_pos hholds, hcredit] at hbudget
  have := need_nonneg credit rest disk.holds
  omega

theorem Affords.min_le (h : Affords plan credit rest disk) : plan.minFreeBytes ≤ disk.free := by
  have := h.budget
  have := need_nonneg credit rest disk.holds
  omega

variable [DecidableEq φ]

theorem affords_of_checks (hroots : verifyPlanRoots plan disk = .ok ⟨⟩)
    (hinventory : verifyPlanInventory c plan disk = .ok ⟨⟩)
    (hcapacity : verifyCapacity c plan disk = .ok ⟨⟩) (hreal : CreditIsReal plan disk) :
    ∃ credit, Affords plan credit plan.candidates disk := by
  have hsize : ∀ item ∈ plan.candidates, ∀ file ∈ disk.sources.lookup item.path,
      file.content.length = item.logicalBytes := fun item hitem file hfile =>
    (verifyItem_size (verifyItem_of_inventory hinventory item (List.mem_of_mem_filter hitem))
      file hfile).1
  rcases hreal with ⟨hsame, hdistinct⟩ | hroom
  · refine ⟨sourceCredit disk, budget_of_capacity hcapacity, hsize, ?_, .inr ?_⟩
    · intro item hitem hcredit
      simp only [verifyPlanRoots, check_eq_ok, not_or, not_not] at hroots
      obtain ⟨⟨hbackup, harchive⟩, -⟩ := hroots
      refine ⟨by rw [hbackup, harchive, hsame], ?_⟩
      unfold sourceCredit at hcredit ⊢
      split at hcredit
      · next hsome =>
        obtain ⟨file, hfile⟩ := Option.isSome_iff_exists.1 hsome
        exact ⟨file, hfile, by rw [if_pos hsome, hsize item hitem file hfile]⟩
      · exact absurd rfl hcredit
    · exact hdistinct.sublist (List.filter_sublist.map _)
  · refine ⟨fun _ => 0, ?_, hsize, fun _ _ h => absurd rfl h, .inl fun _ _ => rfl⟩
    rwa [need_zero]

/-- Removing the source pays its credit back. -/
theorem Affords.remove (hgzip : ∀ content, (c.gzip content).sum ≤ gzipUpperBound content.length)
    {file : SourceFile} (h : Affords plan credit (item :: rest) disk)
    (hfile : file ∈ disk.sources.lookup item.path) (stored : ℕ) :
    Affords plan credit rest
      (((disk.store c item file.content).record item stored).remove item.path) := by
  obtain ⟨hmin, hpaid⟩ := free_store hgzip h hfile
  have hlookup : disk.sources.lookup item.path = some file := hfile
  refine ⟨?_, fun other hother f hf => ?_, fun other hother hcredit => ?_, h.tail_distinct⟩
  · have hfreed : (credit item : ℤ) ≤ if disk.backupFilesystem = disk.archiveFilesystem then
        (file.content.length : ℤ) else 0 := by
      by_cases hzero : credit item = 0
      · rw [hzero]
        split <;> simp
      · obtain ⟨hsame, file', hfile', heq⟩ := h.real item List.mem_cons_self hzero
        obtain rfl : file = file' := Option.some.inj (hlookup.symm.trans hfile')
        rw [if_pos hsame, heq]
    have hholds : (((disk.store c item file.content).record item stored).remove item.path).holds =
        (disk.store c item file.content).holds := by
      funext d
      simp [RetentionDisk.holds, RetentionDisk.remove, RetentionDisk.perform]
    rw [hholds]
    simp only [RetentionDisk.remove, RetentionDisk.perform, RetentionDisk.record_backupFilesystem,
      RetentionDisk.record_archiveFilesystem, RetentionDisk.record_sources,
      RetentionDisk.record_free, RetentionDisk.store_backupFilesystem,
      RetentionDisk.store_archiveFilesystem, RetentionDisk.store_sources, hlookup, Option.elim_some]
    split at hfreed <;> simp_all
    omega
  · have hf' : f ∈ (disk.sources.erase item.path).lookup other.path := by
      simpa [RetentionDisk.remove, RetentionDisk.perform] using hf
    exact h.size other (List.mem_cons_of_mem _ hother) f (lookup_of_erase hf')
  · obtain ⟨hsame, f, hf, heq⟩ := h.real other (List.mem_cons_of_mem _ hother) hcredit
    have hne : other.path ≠ item.path := by
      rcases h.distinct with hzero | hnodup
      · exact absurd (hzero other (List.mem_cons_of_mem _ hother)) hcredit
      · intro hpath
        exact (List.nodup_cons.1 hnodup).1 (List.mem_map.2 ⟨other, hother, hpath⟩)
    have hf' : f ∈ (disk.sources.erase item.path).lookup other.path := by
      rwa [AList.lookup_erase_ne hne]
    exact ⟨by simpa [RetentionDisk.remove, RetentionDisk.perform] using hsame, f,
      by simpa [RetentionDisk.remove, RetentionDisk.perform] using hf', heq⟩

/-- One round keeps the free space and affords the rest. -/
theorem Affords.round (hgzip : ∀ content, (c.gzip content).sum ≤ gzipUpperBound content.length)
    (h : Affords plan credit (item :: rest) disk) (failAfterFiles : Option ℕ)
    (counts : ApplyCounts δ) :
    (applyItem c failAfterFiles counts item).wp (retentionDevice δ φ)
      (fun d => plan.minFreeBytes ≤ d.free) (fun _ => Affords plan credit rest) (fun _ _ => True)
      disk := by
  refine wp_applyItem h.min_le ?_ ?_ ?_ ?_ ?_
  · intro hgone harchived counts
    obtain ⟨-, stored, hstored⟩ := harchived
    refine h.tail hgone ?_
    rw [RetentionDisk.holds, Option.isSome_iff_ne_none]
    intro hnone
    simp [verifyObject, hnone] at hstored
  · intro file hfile hnew d hd
    obtain ⟨hmin, -⟩ := free_store hgzip h hfile
    rw [RetentionDisk.store_free_of_new (by simp [hnew])] at hmin
    exact hmin.trans hd.free
  · intro file hfile d hd
    have := (free_store hgzip h hfile).1
    have := hd.free
    push_cast at this
    omega
  · intro file hfile stored
    rw [RetentionDisk.record_free]
    exact (free_store hgzip h hfile).1
  · intro file hfile stored _
    have hrest := h.remove hgzip hfile stored
    exact ⟨hrest.min_le, fun _ => hrest⟩

/-- Every run of processes behind the lock, each of which may be cut anywhere and resumed by another,
keeps the free space that the plan asks for, when each starts where the credit is real. -/
theorem free_space_is_kept {π : Type} [DecidableEq π] (c : Codec δ)
    (hgzip : ∀ content, (c.gzip content).sum ≤ gzipUpperBound content.length)
    (plan : BackupRetentionPlan δ φ) (disk : RetentionDisk δ φ)
    (haccepted : verifyCapacity c plan disk = .ok ⟨⟩) (moves : List (Move (Option ℕ) π Unit))
    (hreal : Crew.AdmitsWhen (retentionDevice δ φ) (retentionBody c plan)
      (fun _ d => CreditIsReal plan d) (Crew.start disk) moves) :
    plan.minFreeBytes ≤
      (Crew.run (retentionDevice δ φ) (retentionBody c plan) (Crew.start disk) moves).shared.free := by
  have hstart : plan.minFreeBytes ≤ disk.free := by
    have := budget_of_capacity haccepted
    have := need_nonneg (sourceCredit disk) plan.candidates disk.holds
    omega
  refine Crew.run_invariant_of_admitsWhen (I := fun d => (plan.minFreeBytes : ℤ) ≤ d.free)
    (fun failAfterFiles d hmin hreal => ?_) hstart moves hreal
  refine Prog.wp_bind (Prog.wp_mono (fun _ _ _ => trivial) (fun _ _ => id)
    (wp_applyRetentionPlan (Q := fun rest d => ∃ credit, Affords plan credit rest d) hmin
      (fun hroots hinventory hcapacity => affords_of_checks hroots hinventory hcapacity hreal)
      (fun item rest counts d hd => ?_) (fun generation d hd => ?_) (fun report d hd => ?_)))
  · obtain ⟨credit, hd⟩ := hd
    exact Prog.wp_mono (fun _ _ h => ⟨credit, h⟩) (fun _ _ => id) (hd.round hgzip failAfterFiles counts)
  · obtain ⟨credit, hd⟩ := hd
    have hnext : Affords plan credit [] (d.perform (.removeEmptyDirectories generation)).2 :=
      ⟨hd.budget, by simp, by simp, .inl (by simp)⟩
    exact ⟨hnext.min_le, credit, hnext⟩
  · obtain ⟨credit, hd⟩ := hd
    have hnext : Affords plan credit [] (d.perform (.writeReport report)).2 :=
      ⟨hd.budget, by simp, by simp, .inl (by simp)⟩
    exact ⟨hnext.min_le, credit, hnext⟩

/-! ## Two roots on two file systems -/

/-- The digests and compressed sizes of the contents below. -/
def sampleCodec : Codec String where
  sha256 := fun content =>
    if content = [] then "e3b0c44298fc1c149afbf4c8996fb92427ae41e4649b934ca495991b7852b855"
    else if content.head? = some 0 then
      "bce0aff19cf5aa6a7469a30d61d04e4376e4bbf6381052ee9e7f33925c954d52"
    else "dc51c9546d5998caf68ce165eccafcb7db043b226364a7b2c99c31f3ae658735"
  gzip := fun content => [10, min content.length 102 + if content.head? = some 100 then 13 else 10]
  reject := fun _ => false

theorem sampleCodec_bound (content : List UInt8) :
    (sampleCodec.gzip content).sum ≤ gzipUpperBound content.length := by
  simp only [sampleCodec, gzipUpperBound, List.sum_cons, List.sum_nil]
  split <;> omega

/-- A hundred bytes that do not compress. -/
def bytesFrom (first : ℕ) : List UInt8 := (List.range' first 100).map UInt8.ofNat

def sampleFile (generation name : String) (content : List UInt8) : BackupFile String where
  sourceRef := generation ++ "/" ++ name ++ "/a"
  generation := generation
  logicalBytes := content.length
  mtimeNs := 1
  sourceSha256 := sampleCodec.sha256 content

/-- A retained generation of empty files, and one with two files to archive. -/
def sampleFiles : List (BackupFile String × List UInt8) :=
  [(sampleFile "keep" "logical" [], []), (sampleFile "keep" "raw" [], []),
    (sampleFile "keep" "restore" [], []), (sampleFile "old" "logical" (bytesFrom 0), bytesFrom 0),
    (sampleFile "old" "raw" (bytesFrom 100), bytesFrom 100)]

/-- The plan for roots on the file systems `backup` and `archive`. -/
def samplePlan (backup archive : ℕ) : BackupRetentionPlan String ℕ where
  backupFilesystem := backup
  archiveFilesystem := archive
  retainUnpackedGenerations := ["keep"]
  archiveRemoveGenerations := ["old"]
  generations := [⟨"keep", true, 1, 0, 3, "retain_unpacked"⟩,
    ⟨"old", false, 1, 200, 2, "archive_then_remove"⟩]
  files := sampleFiles.map Prod.fst
  sourceLogicalBytes := 200
  retainedLogicalBytes := 0
  reclaimCandidateBytes := 200
  uniqueArchiveLogicalBytes := 200
  maxBackupBytes := 1000
  minFreeBytes := 1000

/-- The tree that the plan describes, and as much free space as the check asks for. -/
def sampleDisk (backup archive : ℕ) : RetentionDisk String ℕ where
  backupFilesystem := backup
  archiveFilesystem := archive
  sources := (sampleFiles.map fun entry =>
    (⟨entry.1.path, ⟨entry.2, 1⟩⟩ : (_ : SourcePath) × SourceFile)).toAList
  directories := []
  objects := fun _ => none
  manifests := fun _ => none
  report := none
  stagedBytes := 0
  stagedLinked := false
  free := 1228

/-- One process that applies the plan without interruption. -/
def sampleMoves : List (Move (Option ℕ) ℕ Unit) :=
  [.arrive 0 none, .acquire 0] ++ List.replicate 20 (.act 0 ())

theorem free_space_is_kept_sample :
    ((samplePlan 1 1).minFreeBytes : ℤ) ≤ (Crew.run (retentionDevice String ℕ)
      (retentionBody sampleCodec (samplePlan 1 1)) (Crew.start (sampleDisk 1 1))
      sampleMoves).shared.free :=
  free_space_is_kept sampleCodec sampleCodec_bound (samplePlan 1 1) (sampleDisk 1 1)
    (by decide +kernel) sampleMoves
    (Crew.admitsWhen_of_forall (fun _ _ => .inl ⟨rfl, by decide +kernel⟩) _ _)

theorem samplePlan_accepted : checkPlan sampleCodec.reject (samplePlan 1 2) = .ok ⟨⟩ ∧
    verifyCapacity sampleCodec (samplePlan 1 2) (sampleDisk 1 2) = .ok ⟨⟩ := by
  decide +kernel

/-- On two file systems the credit for the first source is not real: the second object takes the
archive below its budget. -/
theorem other_filesystem_is_not_credited :
    ¬ ∀ (c : Codec String) (plan : BackupRetentionPlan String ℕ) (disk : RetentionDisk String ℕ)
      (moves : List (Move (Option ℕ) ℕ Unit)),
      (∀ content, (c.gzip content).sum ≤ gzipUpperBound content.length) →
      checkPlan c.reject plan = .ok ⟨⟩ → verifyCapacity c plan disk = .ok ⟨⟩ →
      plan.minFreeBytes ≤ (Crew.run (retentionDevice String ℕ) (retentionBody c plan)
        (Crew.start disk) moves).shared.free := by
  intro h
  obtain ⟨hplan, hcapacity⟩ := samplePlan_accepted
  have hfree := h sampleCodec (samplePlan 1 2) (sampleDisk 1 2) sampleMoves sampleCodec_bound hplan
    hcapacity
  revert hfree
  decide +kernel

end ResearchLab.BackupRetention
