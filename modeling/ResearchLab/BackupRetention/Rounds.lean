import Mathlib
import ResearchLab.BackupRetention.Apply

/-!
# The rounds of a retention run

Which disks a round passes through. What a run keeps is checked on these disks and not on the
programs.
-/
namespace ResearchLab.BackupRetention

open Foundation

variable {δ φ : Type} {c : Codec δ} {item : BackupFile δ}
  {disk disk' : RetentionDisk δ φ} {content : List UInt8}

/-- Only the staging file differs, which has taken at most `bytes` of the space. -/
structure Staged (bytes : ℕ) (disk disk' : RetentionDisk δ φ) : Prop where
  backupFilesystem : disk'.backupFilesystem = disk.backupFilesystem
  archiveFilesystem : disk'.archiveFilesystem = disk.archiveFilesystem
  sources : disk'.sources = disk.sources
  directories : disk'.directories = disk.directories
  objects : disk'.objects = disk.objects
  manifests : disk'.manifests = disk.manifests
  free : disk.free - bytes ≤ disk'.free

theorem Staged.refl (bytes : ℕ) (disk : RetentionDisk δ φ) : Staged bytes disk disk :=
  ⟨rfl, rfl, rfl, rfl, rfl, rfl, by omega⟩

namespace RetentionDisk

/-- A staging file of so many bytes is open. -/
def written (disk : RetentionDisk δ φ) (bytes : ℕ) : RetentionDisk δ φ :=
  { disk with stagedBytes := bytes, stagedLinked := false, free := disk.free - bytes }

theorem staged_written (disk : RetentionDisk δ φ) {n bytes : ℕ} (h : n ≤ bytes) :
    Staged bytes disk (disk.written n) :=
  ⟨rfl, rfl, rfl, rfl, rfl, rfl, by simp only [written]; omega⟩

end RetentionDisk

variable [DecidableEq δ]

namespace RetentionDisk

/-- The disk after `_ensure_object`. -/
def store (disk : RetentionDisk δ φ) (c : Codec δ) (item : BackupFile δ) (content : List UInt8) :
    RetentionDisk δ φ :=
  if (disk.objects item.sourceSha256).isSome then disk
  else { disk with
    objects := Function.update disk.objects item.sourceSha256
      (some ⟨some content, (c.gzip content).sum⟩)
    free := disk.free - (c.gzip content).sum
    stagedBytes := 0
    stagedLinked := false }

theorem store_of_isSome (h : (disk.objects item.sourceSha256).isSome = true) :
    disk.store c item content = disk := if_pos h

theorem store_objects_of_new (h : ¬ (disk.objects item.sourceSha256).isSome = true) :
    (disk.store c item content).objects = Function.update disk.objects item.sourceSha256
      (some ⟨some content, (c.gzip content).sum⟩) := by
  rw [store, if_neg h]

theorem store_free_of_new (h : ¬ (disk.objects item.sourceSha256).isSome = true) :
    (disk.store c item content).free = disk.free - (c.gzip content).sum := by
  rw [store, if_neg h]

/-- The disk after `_ensure_file_manifest`. -/
def record (disk : RetentionDisk δ φ) (item : BackupFile δ) (storedBytes : ℕ) :
    RetentionDisk δ φ :=
  if (disk.manifests (item.sourceRef, item.sourceSha256)).isSome then disk
  else { disk with
    manifests := Function.update disk.manifests (item.sourceRef, item.sourceSha256)
      (some (.digested (fileManifestPayload item storedBytes) true)) }

/-- The disk after `source.unlink()`. -/
def remove [DecidableEq φ] (disk : RetentionDisk δ φ) (path : SourcePath) : RetentionDisk δ φ :=
  (disk.perform (.unlinkSource path)).2

section
variable {n : ℕ}

@[simp] theorem store_backupFilesystem : (disk.store c item content).backupFilesystem = disk.backupFilesystem := by
  unfold store
  split <;> rfl

@[simp] theorem store_archiveFilesystem : (disk.store c item content).archiveFilesystem = disk.archiveFilesystem := by
  unfold store
  split <;> rfl

@[simp] theorem store_sources : (disk.store c item content).sources = disk.sources := by
  unfold store
  split <;> rfl

@[simp] theorem store_directories : (disk.store c item content).directories = disk.directories := by
  unfold store
  split <;> rfl

@[simp] theorem store_manifests : (disk.store c item content).manifests = disk.manifests := by
  unfold store
  split <;> rfl

@[simp] theorem record_backupFilesystem : (disk.record item n).backupFilesystem = disk.backupFilesystem := by
  unfold record
  split <;> rfl

@[simp] theorem record_archiveFilesystem : (disk.record item n).archiveFilesystem = disk.archiveFilesystem := by
  unfold record
  split <;> rfl

@[simp] theorem record_sources : (disk.record item n).sources = disk.sources := by
  unfold record
  split <;> rfl

@[simp] theorem record_directories : (disk.record item n).directories = disk.directories := by
  unfold record
  split <;> rfl

@[simp] theorem record_objects : (disk.record item n).objects = disk.objects := by
  unfold record
  split <;> rfl

@[simp] theorem record_free : (disk.record item n).free = disk.free := by
  unfold record
  split <;> rfl

end

end RetentionDisk

theorem verifyObject_store (h : (disk.objects item.sourceSha256).isSome = false)
    (hcontent : verifyContent c item content = .ok ⟨⟩) :
    verifyObject c item (disk.store c item content) = .ok (c.gzip content).sum := by
  simp only [verifyObject, RetentionDisk.store, h, Bool.false_eq_true, if_false,
    Function.update_self]
  exact bind_eq_ok.2 ⟨⟨⟩, hcontent, rfl⟩

/-- What `verify_archive` checks of a file. -/
def Archived (c : Codec δ) (item : BackupFile δ) (disk : RetentionDisk δ φ) : Prop :=
  (∃ manifest, loadFileManifest item disk = .ok (some manifest)) ∧
    ∃ stored, verifyObject c item disk = .ok stored

theorem loadFileManifest_of_payload {stored : ℕ} {canonical : Bool}
    (h : disk.manifests (item.sourceRef, item.sourceSha256) =
      some (.digested (fileManifestPayload item stored) canonical)) :
    loadFileManifest item disk = .ok (some (fileManifestPayload item stored)) := by
  simp only [loadFileManifest, h]
  exact if_pos ⟨rfl, rfl, rfl, rfl, rfl⟩

theorem verifyObject_record (d : RetentionDisk δ φ) (stored : ℕ) :
    verifyObject c item (d.record item stored) = verifyObject c item d := by
  unfold RetentionDisk.record
  split <;> rfl

section
variable [DecidableEq φ] {α β : Type} {I : RetentionDisk δ φ → Prop}
  {Q : β → RetentionDisk δ φ → Prop} {E : String → RetentionDisk δ φ → Prop}

theorem wp_effect {e : RetentionEffect δ} {f : e.Answer δ φ → Retention δ φ β}
    (hI : I (disk.perform e).2)
    (h : (f (disk.perform e).1).wp (retentionDevice δ φ) I Q E (disk.perform e).2) :
    (Prog.perform e >>= f).wp (retentionDevice δ φ) I Q E disk :=
  Prog.wp_seq ((Prog.wp_perform _).2 fun _ => ⟨hI, h⟩)

theorem wp_look {f : RetentionDisk δ φ → Retention δ φ β} (hI : I disk)
    (h : (f disk).wp (retentionDevice δ φ) I Q E disk) :
    (look >>= f).wp (retentionDevice δ φ) I Q E disk := wp_effect (e := .look) hI h

theorem wp_checked {f : α → Retention δ φ β} {x : Except String α} (hE : ∀ m, E m disk)
    (h : ∀ a, x = .ok a → (f a).wp (retentionDevice δ φ) I Q E disk) :
    (Prog.ofExcept x >>= f).wp (retentionDevice δ φ) I Q E disk :=
  Prog.wp_seq ((Prog.wp_ofExcept _).2 ⟨h, fun m _ => hE m⟩)

end

/-! ## The staging file -/

namespace RetentionDisk

/-- The staging file of a content is linked and still there. -/
def linked (disk : RetentionDisk δ φ) (c : Codec δ) (item : BackupFile δ) (content : List UInt8) :
    RetentionDisk δ φ :=
  { disk.written (c.gzip content).sum with
    objects := Function.update disk.objects item.sourceSha256
      (some ⟨some content, (c.gzip content).sum⟩)
    stagedLinked := true }

theorem staged_linked (h : (disk.objects item.sourceSha256).isSome = false) :
    Staged 0 (disk.store c item content) (disk.linked c item content) := by
  rw [store, if_neg (by simp [h])]
  exact ⟨rfl, rfl, rfl, rfl, rfl, rfl, by simp [linked, written]⟩

variable [DecidableEq φ]

theorem perform_openStaging (disk : RetentionDisk δ φ) :
    (disk.perform .openStaging).2 = disk.written 0 := by
  simp [perform, written]

theorem perform_writeStaging (disk : RetentionDisk δ φ) (n bytes : ℕ) :
    ((disk.written n).perform (.writeStaging bytes)).2 = disk.written (n + bytes) := by
  have hfree : disk.free - n - bytes = disk.free - ((n + bytes : ℕ) : ℤ) := by
    push_cast
    ring
  simp only [perform, written, hfree]

theorem staged_discarded (disk : RetentionDisk δ φ) (n bytes : ℕ) :
    Staged bytes disk ((disk.written n).perform .unlinkStaging).2 :=
  ⟨rfl, rfl, rfl, rfl, rfl, rfl, by simp only [perform, written, Bool.false_eq_true, if_false]; omega⟩

theorem perform_linkObject (h : (disk.objects item.sourceSha256).isSome = false) :
    (disk.written (c.gzip content).sum).perform
      (.linkObject item.sourceSha256 ⟨some content, (c.gzip content).sum⟩) =
        (true, disk.linked c item content) := if_neg (by simp [written, h])

theorem perform_unlinkStaging (h : (disk.objects item.sourceSha256).isSome = false) :
    ((disk.linked c item content).perform .unlinkStaging).2 = disk.store c item content := by
  simp [perform, linked, written, store, h]

end RetentionDisk

variable [DecidableEq φ]

/-- The pieces of an object go into the staging file one after another. -/
theorem wp_writeStaging {I : RetentionDisk δ φ → Prop} {E : String → RetentionDisk δ φ → Prop}
    (pieces : List ℕ) (n : ℕ) (hI : ∀ m ≤ n + pieces.sum, I (disk.written m)) :
    (Prog.forEach (fun _ bytes => Prog.perform (RetentionEffect.writeStaging bytes)) PUnit.unit
      pieces : Retention δ φ Unit).wp (retentionDevice δ φ) I
      (fun _ d => d = disk.written (n + pieces.sum)) E (disk.written n) := by
  induction pieces generalizing n with
  | nil => simp [Prog.forEach]
  | cons bytes pieces ih =>
    have hsum : n + (bytes :: pieces).sum = n + bytes + pieces.sum := by
      rw [List.sum_cons]
      omega
    rw [hsum] at hI ⊢
    refine wp_effect ?_ ?_
    · rw [RetentionDisk.perform_writeStaging]
      exact hI _ (by omega)
    · rw [RetentionDisk.perform_writeStaging]
      exact ih (n + bytes) hI

/-- What `_ensure_object` passes through and what it leaves. -/
theorem wp_ensureObject {I : RetentionDisk δ φ → Prop} {Q : ℕ × Bool → RetentionDisk δ φ → Prop}
    (hI : I disk)
    (hstage : disk.objects item.sourceSha256 = none →
      ∀ d, Staged (c.gzip content).sum disk d → I d)
    (hstore : ∀ d, Staged 0 (disk.store c item content) d → I d)
    (hQ : ∀ stored created, verifyObject c item (disk.store c item content) = .ok stored →
      Q (stored, created) (disk.store c item content)) :
    (ensureObject c item content).wp (retentionDevice δ φ) I Q (fun _ _ => True) disk := by
  refine wp_look hI ?_
  by_cases h : (disk.objects item.sourceSha256).isSome = true
  · rw [if_pos h]
    refine wp_checked (fun _ => trivial) fun stored hstored => ?_
    rw [RetentionDisk.store_of_isSome h] at hQ
    exact hQ stored false hstored
  · have hnew : (disk.objects item.sourceSha256).isSome = false := by simpa using h
    replace hstage := hstage (by simpa using hnew)
    rw [if_neg h]
    refine wp_effect ?_ ?_
    · rw [RetentionDisk.perform_openStaging]
      exact hstage _ (disk.staged_written (Nat.zero_le _))
    rw [RetentionDisk.perform_openStaging]
    refine Prog.wp_finallyDo (Prog.wp_seq (Prog.wp_mono (fun _ d hd => ?_) (fun _ _ => id)
      (wp_writeStaging (c.gzip content) 0 fun m hm => hstage _ (disk.staged_written (by omega)))))
    rw [zero_add] at hd
    subst hd
    refine wp_checked (fun _ => ?_) fun done hcontent => ?_
    · -- the staging file does not restore: it is removed
      exact (Prog.wp_perform _).2 fun _ => ⟨hstage _ (disk.staged_discarded _ _), trivial⟩
    have hQ := hQ _ true (verifyObject_store hnew hcontent)
    refine wp_effect ?_ ?_
    · rw [RetentionDisk.perform_linkObject hnew]
      exact hstore _ (RetentionDisk.staged_linked hnew)
    rw [RetentionDisk.perform_linkObject hnew]
    rw [← RetentionDisk.perform_unlinkStaging hnew] at hQ hstore
    exact (Prog.wp_perform _).2 fun _ => ⟨hstore _ (.refl _ _), hQ⟩

theorem wp_ensureFileManifest {stored : ℕ} {I : RetentionDisk δ φ → Prop}
    {Q : Unit → RetentionDisk δ φ → Prop} (hI : I (disk.record item stored))
    (hQ : (∃ manifest, loadFileManifest item (disk.record item stored) = .ok (some manifest)) →
      Q ⟨⟩ (disk.record item stored)) :
    (ensureFileManifest item stored).wp (retentionDevice δ φ) I Q (fun _ _ => True) disk := by
  by_cases h : (disk.manifests (item.sourceRef, item.sourceSha256)).isSome = true
  · have hkept : disk.record item stored = disk := if_pos h
    have hlink : disk.perform (.linkManifest (item.sourceRef, item.sourceSha256)
        (fileManifestPayload item stored)) = (false, disk) := if_pos h
    rw [hkept] at hI hQ
    refine wp_effect ?_ ?_
    · rwa [hlink]
    rw [hlink]
    refine wp_look hI ?_
    by_cases hsame : disk.manifests (item.sourceRef, item.sourceSha256) =
        some (.digested (fileManifestPayload item stored) true)
    · rw [if_pos hsame]
      exact hQ ⟨_, loadFileManifest_of_payload hsame⟩
    · rw [if_neg hsame]
      trivial
  · have hlink : disk.perform (.linkManifest (item.sourceRef, item.sourceSha256)
        (fileManifestPayload item stored)) = (true, disk.record item stored) := by
      rw [RetentionDisk.record, if_neg h]
      exact if_neg h
    have hloads : loadFileManifest item (disk.record item stored) =
        .ok (some (fileManifestPayload item stored)) :=
      @loadFileManifest_of_payload _ _ _ _ _ stored true (by
        rw [RetentionDisk.record, if_neg h]
        exact Function.update_self ..)
    refine wp_effect ?_ ?_
    · rwa [hlink]
    rw [hlink]
    exact hQ ⟨_, hloads⟩

/-- What one round passes through and what it leaves. -/
theorem wp_applyItem_changed {failAfterFiles : Option ℕ} {counts : ApplyCounts δ}
    {I : RetentionDisk δ φ → Prop} {Q : ApplyCounts δ → RetentionDisk δ φ → Prop}
    (hI : I disk)
    (hgone : disk.sources.lookup item.path = none → Archived c item disk →
      ∀ counts', counts'.changed = counts.changed → Q counts' disk)
    (hstage : ∀ file ∈ disk.sources.lookup item.path, disk.objects item.sourceSha256 = none →
      ∀ d, Staged (c.gzip file.content).sum disk d → I d)
    (hstore : ∀ file ∈ disk.sources.lookup item.path, ∀ d,
      Staged 0 (disk.store c item file.content) d → I d)
    (hrecord : ∀ file ∈ disk.sources.lookup item.path, ∀ stored,
      I ((disk.store c item file.content).record item stored))
    (hremove : ∀ file ∈ disk.sources.lookup item.path, ∀ stored,
      Archived c item ((disk.store c item file.content).record item stored) →
      I (((disk.store c item file.content).record item stored).remove item.path) ∧
      ∀ counts, Q counts (((disk.store c item file.content).record item stored).remove item.path)) :
    (applyItem c failAfterFiles counts item).wp (retentionDevice δ φ) I Q (fun _ _ => True) disk := by
  refine wp_checked (fun _ => trivial) fun path hpath => ?_
  obtain ⟨rfl, -⟩ := safeRelative_eq_ok hpath
  refine wp_look hI ?_
  cases hlookup : disk.sources.lookup (SourcePath.ofRef item.sourceRef) with
  | none =>
    refine wp_checked (fun _ => trivial) fun manifest hmanifest => ?_
    cases manifest with
    | none => trivial
    | some manifest =>
      refine wp_checked (fun _ => trivial) fun stored hstored => ?_
      exact hgone hlookup ⟨⟨_, hmanifest⟩, _, hstored⟩ _ rfl
  | some file =>
    refine Prog.wp_seq (wp_ensureObject hI (hstage file hlookup) (hstore file hlookup) ?_)
    intro stored created hverified
    refine Prog.wp_seq (wp_ensureFileManifest (hrecord file hlookup stored) fun hmanifest => ?_)
    obtain ⟨hI, hQ⟩ := hremove file hlookup stored
      ⟨hmanifest, stored, (verifyObject_record _ _).trans hverified⟩
    refine wp_effect hI ?_
    dsimp only
    split
    · trivial
    · exact hQ _

theorem wp_applyItem {failAfterFiles : Option ℕ} {counts : ApplyCounts δ}
    {I : RetentionDisk δ φ → Prop} {Q : ApplyCounts δ → RetentionDisk δ φ → Prop}
    (hI : I disk)
    (hgone : disk.sources.lookup item.path = none → Archived c item disk → ∀ counts, Q counts disk)
    (hstage : ∀ file ∈ disk.sources.lookup item.path, disk.objects item.sourceSha256 = none →
      ∀ d, Staged (c.gzip file.content).sum disk d → I d)
    (hstore : ∀ file ∈ disk.sources.lookup item.path, ∀ d,
      Staged 0 (disk.store c item file.content) d → I d)
    (hrecord : ∀ file ∈ disk.sources.lookup item.path, ∀ stored,
      I ((disk.store c item file.content).record item stored))
    (hremove : ∀ file ∈ disk.sources.lookup item.path, ∀ stored,
      Archived c item ((disk.store c item file.content).record item stored) →
      I (((disk.store c item file.content).record item stored).remove item.path) ∧
      ∀ counts, Q counts (((disk.store c item file.content).record item stored).remove item.path)) :
    (applyItem c failAfterFiles counts item).wp (retentionDevice δ φ) I Q (fun _ _ => True) disk :=
  wp_applyItem_changed hI (fun hnone harchived counts' _ => hgone hnone harchived counts') hstage
    hstore hrecord hremove

/-- The generations whose directories are removed, in their order. -/
def BackupRetentionPlan.removals (plan : BackupRetentionPlan δ φ) : List String :=
  sortOn id plan.archiveRemoveGenerations.dedup

/-- The rule of a run: what the checks establish, every round keeps for the rest of the candidates,
then every removal of directories for the rest of the generations, and the report at last. -/
theorem wp_applyRetentionPlan_removals {plan : BackupRetentionPlan δ φ} {failAfterFiles : Option ℕ}
    {I : RetentionDisk δ φ → Prop} {Q : List (BackupFile δ) → RetentionDisk δ φ → Prop}
    {R : List String → RetentionDisk δ φ → Prop} (hI : I disk)
    (hstart : verifyPlanRoots plan disk = .ok ⟨⟩ → verifyPlanInventory c plan disk = .ok ⟨⟩ →
      verifyCapacity c plan disk = .ok ⟨⟩ → Q plan.candidates disk)
    (hround : ∀ item rest counts d, Q (item :: rest) d →
      (applyItem c failAfterFiles counts item).wp (retentionDevice δ φ) I (fun _ => Q rest)
        (fun _ _ => True) d)
    (hrounds : ∀ d, Q [] d → R plan.removals d)
    (hdirectories : ∀ generation rest d, R (generation :: rest) d →
      I (d.perform (.removeEmptyDirectories generation)).2 ∧
        R rest (d.perform (.removeEmptyDirectories generation)).2)
    (hreport : ∀ report d, R [] d →
      I (d.perform (.writeReport report)).2 ∧ R [] (d.perform (.writeReport report)).2) :
    (applyRetentionPlan c plan failAfterFiles).wp (retentionDevice δ φ) I (fun _ => R [])
      (fun _ _ => True) disk := by
  refine wp_look hI ?_
  refine wp_checked (fun _ => trivial) fun _ hroots => ?_
  refine wp_checked (fun _ => trivial) fun _ hinventory => ?_
  refine wp_checked (fun _ => trivial) fun _ hcapacity => ?_
  refine Prog.wp_seq (Prog.wp_mono (fun counts d hd => ?_) (fun _ _ => id)
    (Prog.wp_forEach_rest (Q := fun rest _ d => Q rest d)
      (fun item rest counts d hd => hround item rest counts d hd)
      (hstart hroots hinventory hcapacity)))
  refine Prog.wp_seq (Prog.wp_mono (fun removed d' hd' => ?_) (fun _ _ => id)
    (Prog.wp_forEach_rest (Q := fun rest _ d => R rest d)
      (fun generation rest removed d'' hd'' => ?_) (hrounds d hd)))
  · dsimp only
    split
    · obtain ⟨hI', hR'⟩ := hreport _ d' hd'
      exact wp_effect hI' hR'
    · exact hd'
  · obtain ⟨hI', hR'⟩ := hdirectories generation rest d'' hd''
    exact wp_effect hI' hR'

/-- The rule where the removal of directories and the report keep what is left after the rounds. -/
theorem wp_applyRetentionPlan {plan : BackupRetentionPlan δ φ} {failAfterFiles : Option ℕ}
    {I : RetentionDisk δ φ → Prop} {Q : List (BackupFile δ) → RetentionDisk δ φ → Prop} (hI : I disk)
    (hstart : verifyPlanRoots plan disk = .ok ⟨⟩ → verifyPlanInventory c plan disk = .ok ⟨⟩ →
      verifyCapacity c plan disk = .ok ⟨⟩ → Q plan.candidates disk)
    (hround : ∀ item rest counts d, Q (item :: rest) d →
      (applyItem c failAfterFiles counts item).wp (retentionDevice δ φ) I (fun _ => Q rest)
        (fun _ _ => True) d)
    (hdirectories : ∀ generation d, Q [] d →
      I (d.perform (.removeEmptyDirectories generation)).2 ∧
        Q [] (d.perform (.removeEmptyDirectories generation)).2)
    (hreport : ∀ report d, Q [] d →
      I (d.perform (.writeReport report)).2 ∧ Q [] (d.perform (.writeReport report)).2) :
    (applyRetentionPlan c plan failAfterFiles).wp (retentionDevice δ φ) I (fun _ => Q [])
      (fun _ _ => True) disk :=
  wp_applyRetentionPlan_removals (R := fun _ => Q []) hI hstart hround (fun _ => id)
    (fun generation _ d hd => hdirectories generation d hd) hreport

end ResearchLab.BackupRetention
