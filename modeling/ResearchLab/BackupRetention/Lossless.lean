import Mathlib
import ResearchLab.BackupRetention.Rounds
import ResearchLab.BackupRetention.Capacity
import ResearchLab.Foundation.Checks

/-!
# Retention loses no byte

A source is removed only after its object restores and its manifest is linked, and neither is ever
replaced. A run that returns leaves nothing to do.
-/
namespace ResearchLab.BackupRetention

open Foundation

variable {δ φ : Type} {c : Codec δ} {plan : BackupRetentionPlan δ φ}
  {disk d d' : RetentionDisk δ φ} {item : BackupFile δ} {rest : List (BackupFile δ)}
  {content : List UInt8}

/-! ## What the archive keeps -/

/-- Objects and manifests stay. -/
structure Grows (d d' : RetentionDisk δ φ) : Prop where
  objects : ∀ k object, d.objects k = some object → d'.objects k = some object
  manifests : ∀ k manifest, d.manifests k = some manifest → d'.manifests k = some manifest

theorem Grows.of_eq (hobjects : d'.objects = d.objects) (hmanifests : d'.manifests = d.manifests) :
    Grows d d' :=
  ⟨fun _ _ h => by rw [hobjects, h], fun _ _ h => by rw [hmanifests, h]⟩

theorem Grows.trans {d'' : RetentionDisk δ φ} (h : Grows d d') (h' : Grows d' d'') : Grows d d'' :=
  ⟨fun k o ho => h'.objects k o (h.objects k o ho),
    fun k m hm => h'.manifests k m (h.manifests k m hm)⟩

variable [DecidableEq δ]

theorem grows_store (d : RetentionDisk δ φ) (c : Codec δ) (item : BackupFile δ)
    (content : List UInt8) : Grows d (d.store c item content) := by
  refine ⟨fun k object hk => ?_, fun k manifest hk => by rwa [RetentionDisk.store_manifests]⟩
  by_cases h : (d.objects item.sourceSha256).isSome = true
  · rwa [RetentionDisk.store_of_isSome h]
  · have hne : k ≠ item.sourceSha256 := by
      rintro rfl
      exact h (by rw [hk]; rfl)
    rwa [RetentionDisk.store_objects_of_new h, Function.update_of_ne hne]

theorem grows_record (d : RetentionDisk δ φ) (item : BackupFile δ) (n : ℕ) :
    Grows d (d.record item n) := by
  refine ⟨fun k object hk => by rwa [RetentionDisk.record_objects], fun k manifest hk => ?_⟩
  unfold RetentionDisk.record
  split
  · exact hk
  · next h =>
    have hne : k ≠ (item.sourceRef, item.sourceSha256) := by
      rintro rfl
      exact h (by rw [hk]; rfl)
    simpa [Function.update_of_ne hne] using hk

theorem Archived.grows (hg : Grows d d') (h : Archived c item d) : Archived c item d' := by
  obtain ⟨⟨manifest, hmanifest⟩, stored, hstored⟩ := h
  constructor
  · refine ⟨manifest, ?_⟩
    cases hk : d.manifests (item.sourceRef, item.sourceSha256) with
    | none => simp [loadFileManifest, hk] at hmanifest
    | some file => simpa [loadFileManifest, hk, hg.manifests _ _ hk] using hmanifest
  · refine ⟨stored, ?_⟩
    cases hk : d.objects item.sourceSha256 with
    | none => simp [verifyObject, hk] at hstored
    | some object => simpa [verifyObject, hk, hg.objects _ _ hk] using hstored

/-- The archive has a manifest of the file and an object that restores the content. -/
def Restorable (item : BackupFile δ) (content : List UInt8) (d : RetentionDisk δ φ) : Prop :=
  (∃ manifest, loadFileManifest item d = .ok (some manifest)) ∧
    ∃ object, d.objects item.sourceSha256 = some object ∧ object.restored = some content

theorem Restorable.grows (hg : Grows d d') (h : Restorable item content d) :
    Restorable item content d' := by
  obtain ⟨⟨manifest, hmanifest⟩, object, hobject, hrestored⟩ := h
  refine ⟨⟨manifest, ?_⟩, object, hg.objects _ _ hobject, hrestored⟩
  cases hk : d.manifests (item.sourceRef, item.sourceSha256) with
  | none => simp [loadFileManifest, hk] at hmanifest
  | some file => simpa [loadFileManifest, hk, hg.manifests _ _ hk] using hmanifest

/-- What verifies under the digest of a content is that content. -/
theorem Archived.restorable (hsha : Function.Injective c.sha256) (h : Archived c item d)
    (hcontent : c.sha256 content = item.sourceSha256) : Restorable item content d := by
  obtain ⟨hmanifest, stored, hstored⟩ := h
  refine ⟨hmanifest, ?_⟩
  unfold verifyObject at hstored
  split at hstored
  · cases hstored
  · next object hobject =>
    split at hstored
    · cases hstored
    · next restored hrestored =>
      obtain ⟨done, hverified, -⟩ := bind_eq_ok.1 hstored
      simp only [verifyContent, check_eq_ok, not_or, not_not] at hverified
      have heq : restored = content := hsha (hverified.1.2.trans hcontent.symm)
      exact ⟨object, hobject, by rw [hrestored, heq]⟩

/-! ## What a run keeps -/

/-- Against the disk that a run began with, `before`: every planned file is where it was, with what
it held, or the archive restores it; only files to be archived are ever removed, and no source is
ever written. -/
structure Lossless (plan : BackupRetentionPlan δ φ) (before d : RetentionDisk δ φ) : Prop where
  kept : ∀ item ∈ plan.files, ∀ file ∈ before.sources.lookup item.path,
    file ∈ d.sources.lookup item.path ∨ Restorable item file.content d
  others : ∀ p, p ∉ plan.candidates.map (·.path) → d.sources.lookup p = before.sources.lookup p
  unwritten : ∀ p, ∀ file ∈ d.sources.lookup p, file ∈ before.sources.lookup p

theorem Lossless.refl (plan : BackupRetentionPlan δ φ) (before : RetentionDisk δ φ) :
    Lossless plan before before :=
  ⟨fun _ _ _ h => .inl h, fun _ _ => rfl, fun _ _ h => h⟩

theorem Lossless.grows {before : RetentionDisk δ φ} (h : Lossless plan before d) (hg : Grows d d')
    (hsources : d'.sources = d.sources) : Lossless plan before d' := by
  refine ⟨fun item hitem file hfile => ?_, ?_, ?_⟩
  · rw [hsources]
    exact (h.kept item hitem file hfile).imp_right (·.grows hg)
  · rw [hsources]
    exact h.others
  · rw [hsources]
    exact h.unwritten

/-- The sources that the run has yet to read hold what the plan says. -/
structure InOrder (c : Codec δ) (plan : BackupRetentionPlan δ φ) (before : RetentionDisk δ φ)
    (rest : List (BackupFile δ)) (d : RetentionDisk δ φ) : Prop where
  lossless : Lossless plan before d
  mem : ∀ item ∈ rest, item ∈ plan.candidates
  content : ∀ item ∈ rest, ∀ file ∈ d.sources.lookup item.path,
    c.sha256 file.content = item.sourceSha256

theorem InOrder.tail {before : RetentionDisk δ φ} (h : InOrder c plan before (item :: rest) d) :
    InOrder c plan before rest d :=
  ⟨h.lossless, fun other hother => h.mem other (List.mem_cons_of_mem _ hother),
    fun other hother => h.content other (List.mem_cons_of_mem _ hother)⟩

theorem planned_of_inventory (h : verifyPlanInventory c plan d = .ok ⟨⟩) :
    ∀ p ∈ d.sources.keys, ∃ item ∈ plan.files, item.path = p := by
  intro p hp
  simp only [verifyPlanInventory, check_eq_ok, not_exists, not_and, not_lt, not_not] at h
  obtain ⟨hlong, hplanned, -⟩ := h
  obtain ⟨item, hitem, href⟩ := List.mem_map.1 (hplanned p hp)
  refine ⟨item, hitem, ?_⟩
  have hparts : p.parts ≠ [] := by
    intro hnil
    have := hlong p hp
    simp [hnil] at this
  rw [BackupFile.path, href]
  exact SourcePath.ofRef_asPosix hparts

variable [DecidableEq φ]

theorem lookup_remove (d : RetentionDisk δ φ) (p q : SourcePath) :
    (d.remove p).sources.lookup q = if q = p then none else d.sources.lookup q := by
  split
  · next h =>
    rw [h]
    exact AList.lookup_erase p d.sources
  · next h => exact AList.lookup_erase_ne h

theorem grows_remove (d : RetentionDisk δ φ) (p : SourcePath) : Grows d (d.remove p) :=
  .of_eq rfl rfl

/-- Removing an archived source. -/
theorem InOrder.remove (hsha : Function.Injective c.sha256) (hpaths : plan.PathsDistinct)
    {before : RetentionDisk δ φ} (h : InOrder c plan before (item :: rest) d)
    (harchived : Archived c item d) : InOrder c plan before rest (d.remove item.path) := by
  have hitem := h.mem item List.mem_cons_self
  refine ⟨⟨fun other hother file hfile => ?_, fun p hp => ?_, fun p file hfile => ?_⟩,
    h.tail.mem, fun other hother file hfile => ?_⟩
  · rcases h.lossless.kept other hother file hfile with hthere | hrestorable
    · by_cases hsame : other.path = item.path
      · obtain rfl : other = item := List.inj_on_of_nodup_map hpaths hother
          (List.mem_of_mem_filter hitem) hsame
        have hcontent := h.content other List.mem_cons_self file hthere
        exact .inr ((harchived.restorable hsha hcontent).grows (grows_remove d _))
      · left
        rwa [lookup_remove, if_neg hsame]
    · exact .inr (hrestorable.grows (grows_remove d _))
  · have hne : p ≠ item.path := by
      rintro rfl
      exact hp (List.mem_map_of_mem hitem)
    rw [lookup_remove, if_neg hne]
    exact h.lossless.others p hp
  · rw [lookup_remove] at hfile
    split at hfile
    · cases hfile
    · exact h.lossless.unwritten p file hfile
  · rw [lookup_remove] at hfile
    split at hfile
    · cases hfile
    · exact h.content other (List.mem_cons_of_mem _ hother) file hfile

/-- What one round keeps. -/
theorem InOrder.round (hsha : Function.Injective c.sha256) (hpaths : plan.PathsDistinct)
    {before : RetentionDisk δ φ} (h : InOrder c plan before (item :: rest) d)
    (failAfterFiles : Option ℕ) (counts : ApplyCounts δ) :
    (applyItem c failAfterFiles counts item).wp (retentionDevice δ φ) (Lossless plan before)
      (fun _ => InOrder c plan before rest) (fun _ _ => True) d := by
  have hgrows : ∀ (file : SourceFile) (n : ℕ),
      Grows d ((d.store c item file.content).record item n) := fun file n =>
    (grows_store d c item file.content).trans (grows_record _ item n)
  have hrecorded : ∀ (file : SourceFile) (n : ℕ),
      InOrder c plan before (item :: rest) ((d.store c item file.content).record item n) := by
    intro file n
    refine ⟨h.lossless.grows (hgrows file n) (by simp), h.mem, ?_⟩
    intro other hother f hf
    exact h.content other hother f (by simpa using hf)
  refine wp_applyItem_changed h.lossless (fun _ _ _ _ => h.tail) ?_ ?_ ?_ ?_
  · intro file hfile hnew d' hd'
    exact h.lossless.grows (.of_eq hd'.objects hd'.manifests) hd'.sources
  · intro file hfile d' hd'
    refine h.lossless.grows ((grows_store d c item file.content).trans
      (.of_eq hd'.objects hd'.manifests)) ?_
    rw [hd'.sources, RetentionDisk.store_sources]
  · intro file hfile stored
    exact (hrecorded file stored).lossless
  · intro file hfile stored harchived
    have hrest := (hrecorded file stored).remove hsha hpaths harchived
    exact ⟨hrest.lossless, fun _ => hrest⟩

/-- Runs of `apply_retention_plan` by any processes, cut between any two file operations and
resumed, keep every planned byte and touch nothing else. -/
theorem retention_is_lossless {π : Type} [DecidableEq π] (c : Codec δ)
    (hsha : Function.Injective c.sha256) (plan : BackupRetentionPlan δ φ)
    (hpaths : plan.PathsDistinct) (disk : RetentionDisk δ φ)
    (moves : List (Move (Option ℕ) π Unit)) :
    Lossless plan disk (Crew.run (retentionDevice δ φ) (retentionBody c plan) (Crew.start disk)
      moves).shared := by
  refine Crew.run_invariant (fun failAfterFiles d hd => ?_) (Lossless.refl plan disk) moves
  refine Prog.wp_bind (Prog.wp_mono (fun _ _ _ => trivial) (fun _ _ => id)
    (wp_applyRetentionPlan_removals (Q := InOrder c plan disk) (R := fun _ => Lossless plan disk) hd
      (fun _ hinventory _ => ⟨hd, fun _ => id, fun item hitem file hfile => ?_⟩)
      (fun item rest counts d' hd' => hd'.round hsha hpaths failAfterFiles counts)
      (fun d' hd' => hd'.lossless) (fun generation _ d' hd' => ?_) (fun report d' hd' => ?_)))
  · exact (verifyItem_size (verifyItem_of_inventory hinventory item (List.mem_of_mem_filter hitem))
      file hfile).2
  · have hnext : Lossless plan disk (d'.perform (.removeEmptyDirectories generation)).2 :=
      hd'.grows (.of_eq rfl rfl) rfl
    exact ⟨hnext, hnext⟩
  · have hnext : Lossless plan disk (d'.perform (.writeReport report)).2 :=
      hd'.grows (.of_eq rfl rfl) rfl
    exact ⟨hnext, hnext⟩

/-- The digest that forgets nothing. -/
def plainCodec : Codec (List UInt8) where
  sha256 := id
  gzip := fun content => [content.length + 20]
  reject := fun _ => false

/-- Two files with one content, to be archived. -/
def twinPlan : BackupRetentionPlan (List UInt8) ℕ where
  backupFilesystem := 1
  archiveFilesystem := 1
  retainUnpackedGenerations := ["keep"]
  archiveRemoveGenerations := ["old"]
  generations := [⟨"keep", false, 0, 0, 0, "retain_unpacked"⟩,
    ⟨"old", false, 7, 4, 2, "archive_then_remove"⟩]
  files := [⟨"old/a", "old", 2, 7, [1, 2]⟩, ⟨"old/b", "old", 2, 7, [1, 2]⟩]
  sourceLogicalBytes := 4
  retainedLogicalBytes := 0
  reclaimCandidateBytes := 4
  uniqueArchiveLogicalBytes := 2
  maxBackupBytes := 1000
  minFreeBytes := 10

def twinDisk : RetentionDisk (List UInt8) ℕ where
  backupFilesystem := 1
  archiveFilesystem := 1
  sources := (twinPlan.files.map fun item =>
    (⟨item.path, ⟨[1, 2], 7⟩⟩ : (_ : SourcePath) × SourceFile)).toAList
  directories := [.ofRef "old"]
  objects := fun _ => none
  manifests := fun _ => none
  report := none
  stagedBytes := 0
  stagedLinked := false
  free := 1000

/-- A process is cut while it removes the second file, and another takes over. -/
theorem retention_is_lossless_twins :
    Lossless twinPlan twinDisk (Crew.run (retentionDevice (List UInt8) ℕ)
      (retentionBody plainCodec twinPlan) (Crew.start twinDisk)
      ([.arrive 0 none, .acquire 0] ++ List.replicate 12 (.act 0 ()) ++
        [.crash 0, .arrive 1 none, .acquire 1] ++ List.replicate 12 (.act 1 ()))).shared :=
  retention_is_lossless plainCodec (fun _ _ h => h) twinPlan (by decide +kernel) twinDisk _

/-! ## A run that returns -/

/-- The candidates outside `rest` are archived and gone. -/
structure Settled (c : Codec δ) (plan : BackupRetentionPlan δ φ) (rest : List (BackupFile δ))
    (d : RetentionDisk δ φ) : Prop where
  roots : verifyPlanRoots plan d = .ok ⟨⟩
  planned : ∀ p ∈ d.sources.keys, ∃ item ∈ plan.files, item.path = p
  settled : ∀ item ∈ plan.candidates, item ∈ rest ∨
    (Archived c item d ∧ d.sources.lookup item.path = none)

/-- No directory of the generations outside `rest` is left. -/
structure Finished (c : Codec δ) (plan : BackupRetentionPlan δ φ) (rest : List String)
    (d : RetentionDisk δ φ) : Prop where
  settled : Settled c plan [] d
  directories : ∀ generation ∈ plan.removals, generation ∈ rest ∨
    ∀ dir ∈ d.directories, ¬ d.EmptyIn generation dir

theorem Settled.of_sources {rest' : List (BackupFile δ)} (h : Settled c plan rest d)
    (hg : Grows d d')
    (hbackup : d'.backupFilesystem = d.backupFilesystem)
    (harchive : d'.archiveFilesystem = d.archiveFilesystem)
    (hshrinks : ∀ p, d.sources.lookup p = none → d'.sources.lookup p = none)
    (hrest : ∀ item ∈ rest,
      item ∈ rest' ∨ (Archived c item d' ∧ d'.sources.lookup item.path = none)) :
    Settled c plan rest' d' := by
  refine ⟨?_, fun p hp => h.planned p ?_, fun item hitem => ?_⟩
  · simpa only [verifyPlanRoots, hbackup, harchive] using h.roots
  · by_contra hnot
    have hnone := hshrinks p (AList.lookup_eq_none.2 hnot)
    exact AList.lookup_eq_none.1 hnone hp
  · rcases h.settled item hitem with hmem | ⟨harchived, hgone⟩
    · exact hrest item hmem
    · exact .inr ⟨harchived.grows hg, hshrinks _ hgone⟩

theorem Settled.round (h : Settled c plan (item :: rest) d) (failAfterFiles : Option ℕ)
    (counts : ApplyCounts δ) :
    (applyItem c failAfterFiles counts item).wp (retentionDevice δ φ) (fun _ => True)
      (fun _ => Settled c plan rest) (fun _ _ => True) d := by
  refine wp_applyItem_changed trivial ?_ (fun _ _ _ _ _ => trivial) (fun _ _ _ _ => trivial)
    (fun _ _ _ => trivial) ?_
  · intro hgone harchived counts' _
    refine h.of_sources (.of_eq rfl rfl) rfl rfl (fun _ => id) fun other hother => ?_
    rcases List.mem_cons.1 hother with rfl | hother
    · exact .inr ⟨harchived, hgone⟩
    · exact .inl hother
  · intro file hfile stored harchived
    refine ⟨trivial, fun _ => ?_⟩
    have hgrows := ((grows_store d c item file.content).trans (grows_record _ item stored)).trans
      (grows_remove _ item.path)
    refine h.of_sources hgrows ?_ ?_ (fun p hp => ?_) fun other hother => ?_
    · simp [RetentionDisk.remove, RetentionDisk.perform]
    · simp [RetentionDisk.remove, RetentionDisk.perform]
    · rw [lookup_remove]
      split
      · rfl
      · simpa using hp
    · rcases List.mem_cons.1 hother with rfl | hother
      · exact .inr ⟨harchived.grows (grows_remove _ _), by rw [lookup_remove, if_pos rfl]⟩
      · exact .inl hother

theorem finished_of_run (c : Codec δ) (plan : BackupRetentionPlan δ φ) (failAfterFiles : Option ℕ)
    (disk : RetentionDisk δ φ) :
    (applyRetentionPlan c plan failAfterFiles).wp (retentionDevice δ φ) (fun _ => True)
      (fun _ => Finished c plan []) (fun _ _ => True) disk := by
  refine wp_applyRetentionPlan_removals (Q := Settled c plan) (R := Finished c plan) trivial
    (fun hroots hinventory _ => ⟨hroots, planned_of_inventory hinventory, fun _ => .inl⟩)
    (fun item rest counts d hd => hd.round failAfterFiles counts)
    (fun d hd => ⟨hd, fun _ => .inl⟩) (fun generation rest d hd => ⟨trivial, ?_⟩)
    (fun report d hd => ⟨trivial, ?_⟩)
  · refine ⟨hd.settled.of_sources (.of_eq rfl rfl) rfl rfl (fun _ => id) (by simp), ?_⟩
    intro other hother
    have hkept : ∀ dir ∈ (d.perform (.removeEmptyDirectories generation)).2.directories,
        dir ∈ d.directories ∧ ¬ d.EmptyIn generation dir := by
      intro dir hdir
      simpa [RetentionDisk.perform] using hdir
    rcases hd.directories other hother with hmem | hempty
    · rcases List.mem_cons.1 hmem with rfl | hmem
      · exact .inr fun dir hdir => (hkept dir hdir).2
      · exact .inl hmem
    · exact .inr fun dir hdir => hempty dir (hkept dir hdir).1
  · exact ⟨hd.settled.of_sources (.of_eq rfl rfl) rfl rfl (fun _ => id) (by simp), hd.directories⟩

/-- `verify_archive` passes where everything is archived. -/
theorem verifyArchive_of_settled (h : Settled c plan [] d) : verifyArchive c plan d = .ok ⟨⟩ := by
  have harchived : ∀ item ∈ plan.candidates, Archived c item d := fun item hitem =>
    ((h.settled item hitem).resolve_left List.not_mem_nil).1
  refine bind_eq_ok.2 ⟨⟨⟩, h.roots, bind_eq_ok.2
    ((foldlM_returns (fun item hitem verified => ?_) []).imp fun verified hloop => ⟨hloop, rfl⟩)⟩
  obtain ⟨⟨manifest, hmanifest⟩, stored, hstored⟩ := harchived item hitem
  by_cases hmem : item.sourceSha256 ∈ verified
  · exact ⟨verified, bind_eq_ok.2 ⟨some manifest, hmanifest, if_pos hmem⟩⟩
  · exact ⟨_, bind_eq_ok.2 ⟨some manifest, hmanifest,
      (if_neg hmem).trans (bind_eq_ok.2 ⟨stored, hstored, rfl⟩)⟩⟩

theorem perform_removeEmptyDirectories {generation : String}
    (h : ∀ dir ∈ d.directories, ¬ d.EmptyIn generation dir) :
    d.perform (.removeEmptyDirectories generation) = ((0 : ℕ), d) := by
  have hnone : d.directories.filter (d.EmptyIn generation ·) = [] :=
    List.filter_eq_nil_iff.2 fun dir hdir => by simpa using h dir hdir
  have hall : d.directories.filter (¬ d.EmptyIn generation ·) = d.directories :=
    List.filter_eq_self.2 fun dir hdir => by simpa using h dir hdir
  simp only [RetentionDisk.perform, hnone, hall, List.length_nil]
  rfl

/-- A run over a finished plan changes nothing. -/
theorem unchanged_of_finished (h : Finished c plan [] d) (failAfterFiles : Option ℕ) :
    (applyRetentionPlan c plan failAfterFiles).wp (retentionDevice δ φ) (fun d' => d' = d)
      (fun _ _ => True) (fun _ _ => True) d := by
  refine wp_look rfl ?_
  refine wp_checked (fun _ => trivial) fun _ _ => ?_
  refine wp_checked (fun _ => trivial) fun _ _ => ?_
  refine wp_checked (fun _ => trivial) fun _ _ => ?_
  refine Prog.wp_seq (Prog.wp_mono (fun counts d' hd' => ?_) (fun _ _ => id)
    (Prog.wp_forEach_rest (Q := fun rest counts d' =>
        d' = d ∧ counts.changed = 0 ∧ ∀ item ∈ rest, item ∈ plan.candidates)
      (fun item rest counts d' hd' => ?_) ⟨rfl, rfl, fun _ => id⟩))
  · obtain ⟨rfl, hchanged, -⟩ := hd'
    refine Prog.wp_seq (Prog.wp_mono (fun removed d' hd' => ?_) (fun _ _ => id)
      (Prog.wp_forEach_rest (Q := fun rest removed d'' =>
          d'' = d' ∧ removed = 0 ∧ ∀ generation ∈ rest, generation ∈ plan.removals)
        (fun generation rest removed d'' hd'' => ?_) ⟨rfl, rfl, fun _ => id⟩))
    · obtain ⟨-, hremoved, -⟩ := hd'
      rw [if_neg (by simp [hchanged, hremoved])]
      trivial
    · obtain ⟨rfl, hremoved, hrest⟩ := hd''
      have hempty := (h.directories generation (hrest _ List.mem_cons_self)).resolve_left
        List.not_mem_nil
      have hstill := perform_removeEmptyDirectories hempty
      refine wp_effect ?_ ?_
      · rw [hstill]
      · rw [hstill]
        exact ⟨rfl, hremoved, fun other hother => hrest other (List.mem_cons_of_mem _ hother)⟩
  · obtain ⟨rfl, hchanged, hrest⟩ := hd'
    have hgone := ((h.settled.settled item (hrest item List.mem_cons_self)).resolve_left
      List.not_mem_nil).2
    have hnot : ∀ file, file ∉ d'.sources.lookup item.path := by simp [hgone]
    refine wp_applyItem_changed rfl ?_ (fun file hfile => absurd hfile (hnot file))
      (fun file hfile => absurd hfile (hnot file)) (fun file hfile => absurd hfile (hnot file))
      (fun file hfile => absurd hfile (hnot file))
    intro _ _ counts' hcounts'
    exact ⟨rfl, hcounts'.trans hchanged,
      fun other hother => hrest other (List.mem_cons_of_mem _ hother)⟩

/-- A run that returns leaves no file of the archived generations and an archive that
`verify_archive` accepts, and no further run, however cut, changes anything. -/
theorem returned_run_is_final {π : Type} [DecidableEq π] (c : Codec δ)
    (plan : BackupRetentionPlan δ φ) (hplan : checkPlan c.reject plan = .ok ⟨⟩)
    (disk : RetentionDisk δ φ) (failAfterFiles : Option ℕ) (report : ApplyReport)
    (hreturned : ((applyRetentionPlan c plan failAfterFiles).exec (retentionDevice δ φ)
      (Stream'.const ()) disk).result = .ok report) :
    let after := ((applyRetentionPlan c plan failAfterFiles).exec (retentionDevice δ φ)
      (Stream'.const ()) disk).state
    (∀ p ∈ after.sources.keys, ∀ generation ∈ plan.archiveRemoveGenerations,
      p.parts.head? ≠ some generation.toList) ∧
    verifyArchive c plan after = .ok ⟨⟩ ∧
    ∀ moves : List (Move (Option ℕ) π Unit), (Crew.run (retentionDevice δ φ)
      (retentionBody c plan) (Crew.start after) moves).shared = after := by
  intro after
  have hafter : Finished c plan [] after :=
    (Prog.wp_exec (finished_of_run c plan failAfterFiles disk) _).1 report hreturned
  refine ⟨fun p hp generation hgeneration hhead => ?_, verifyArchive_of_settled hafter.settled,
    fun moves => ?_⟩
  · obtain ⟨item, hitem, rfl⟩ := hafter.settled.planned p hp
    have hsame := ((checked_of_checkPlan hplan).generation item hitem).symm.trans hhead
    have hgen : item.generation = generation := by
      simpa [String.toList_inj] using hsame
    have hcandidate : item ∈ plan.candidates :=
      List.mem_filter.2 ⟨hitem, by simpa [hgen] using hgeneration⟩
    have hgone := ((hafter.settled.settled item hcandidate).resolve_left List.not_mem_nil).2
    exact AList.lookup_eq_none.1 hgone hp
  · refine Crew.run_invariant (I := fun d => d = after) (fun failAfterFiles d hd => ?_) rfl moves
    rw [hd]
    exact Prog.wp_bind (Prog.wp_mono (fun _ _ _ => trivial) (fun _ _ => id)
      (unchanged_of_finished hafter failAfterFiles))

theorem returned_run_is_final_twins :
    let after := ((applyRetentionPlan plainCodec twinPlan none).exec
      (retentionDevice (List UInt8) ℕ) (Stream'.const ()) twinDisk).state
    (∀ p ∈ after.sources.keys, ∀ generation ∈ twinPlan.archiveRemoveGenerations,
      p.parts.head? ≠ some generation.toList) ∧
    verifyArchive plainCodec twinPlan after = .ok ⟨⟩ ∧
    ∀ moves : List (Move (Option ℕ) ℕ Unit), (Crew.run (retentionDevice (List UInt8) ℕ)
      (retentionBody plainCodec twinPlan) (Crew.start after) moves).shared = after :=
  returned_run_is_final plainCodec twinPlan (by decide +kernel) twinDisk none
    ⟨2, 0, 1, 4, 1, 1, 22⟩ (by decide +kernel)

end ResearchLab.BackupRetention
