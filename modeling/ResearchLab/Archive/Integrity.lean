import ResearchLab.Archive.Catalog
import ResearchLab.Foundation.Machine

/-!
# One manifest for each artifact

A catalogue whose manifests have different artifact ids is read and indexed without ambiguity. A
registration that repeats the artifact of an earlier one has to repeat all of its arguments: any
other leaves a second manifest of the same id.
-/
namespace ResearchLab.Archive
open Foundation

section
variable {δ ρ : Type} [DecidableEq δ] {P : Platform δ ρ} {capability : Capability}

/-! ## What is on file -/

/-- The manifest is what a registration of some source writes. -/
def Written (P : Platform δ ρ) (capability : Capability) (m : Manifest δ) : Prop :=
  ∃ r sourceRef content, m = manifestOf P capability r sourceRef content

/-- A registration with the arguments that a manifest records. -/
def Repeats (P : Platform δ ρ) (m : Manifest δ) (r : Registration) (sourceRef : String)
    (content : Bytes) : Prop :=
  m.payload.streamId = r.streamId ∧ m.payload.kind = r.kind ∧ m.payload.contour = r.contour ∧
    m.payload.payloadSchema = r.payloadSchema ∧ m.payload.sourceRevision = r.sourceRevision ∧
    m.payload.sourceRef = sourceRef ∧ m.payload.sourceSha256 = P.sha256 content ∧
    m.payload.firstObservedAt = r.firstObservedAt ∧ m.payload.lastObservedAt = r.lastObservedAt ∧
    m.payload.sensitivity = r.sensitivity ∧ m.payload.createdAt = r.createdAt ∧
    m.payload.restoreVerified = r.restoreVerified

instance decidableRepeats (m : Manifest δ) (r : Registration) (sourceRef : String)
    (content : Bytes) : Decidable (Repeats P m r sourceRef content) :=
  inferInstanceAs (Decidable (_ ∧ _))

omit [DecidableEq δ] in
/-- A registration that repeats a manifest writes it again. -/
theorem Written.eq_manifestOf (hsha : Function.Injective P.sha256) {m : Manifest δ}
    (h : Written P capability m) {r : Registration} {sourceRef : String} {content : Bytes}
    (hrepeats : Repeats P m r sourceRef content) :
    m = manifestOf P capability r sourceRef content := by
  obtain ⟨r', sourceRef', content', rfl⟩ := h
  have hpayload : payloadOf P capability r' sourceRef' content' =
      payloadOf P capability r sourceRef content := by
    obtain ⟨hstream, hkind, hcontour, hschema, hrevision, href, hsource, hfirst, hlast,
      hsensitivity, hcreated, hrestore⟩ := hrepeats
    dsimp only [manifestOf, payloadOf] at *
    rw [hstream, hkind, hcontour, hschema, hrevision, href, hfirst, hlast, hsensitivity, hcreated,
      hrestore, hsha hsource]
  rw [manifestOf, manifestOf, hpayload]

/-- A catalogue that reads without ambiguity. -/
structure Sound (P : Platform δ ρ) (capability : Capability) (catalog : Catalog δ) : Prop where
  objects : ∀ sha stored, catalog.objects.row sha = some stored → P.sha256 stored = sha
  written : ∀ name m, catalog.manifests.row name = some m → Written P capability m
  readable : ∀ name m, catalog.manifests.row name = some m → fileProblem P capability name m = none
  stored : ∀ name m, catalog.manifests.row name = some m →
    ∃ stored, catalog.objects.row m.payload.objectSha256 = some stored ∧
      stored.length = m.payload.storedBytes
  once : ∀ name m name' m', catalog.manifests.row name = some m →
    catalog.manifests.row name' = some m' → m.payload.artifactId = m'.payload.artifactId → m = m'
  indexed : ∀ id m, catalog.index.row id = some m ↔
    ∃ name, catalog.manifests.row name = some m ∧ m.payload.artifactId = id

theorem sound_empty : Sound P capability (.empty : Catalog δ) where
  objects _ _ h := by simp [Catalog.empty] at h
  written _ _ h := by simp [Catalog.empty] at h
  readable _ _ h := by simp [Catalog.empty] at h
  stored _ _ h := by simp [Catalog.empty] at h
  once _ _ _ _ h := by simp [Catalog.empty] at h
  indexed := by simp [Catalog.empty]

variable {catalog : Catalog δ}

theorem Sound.validateObject (h : Sound P capability catalog) {name : String × String}
    {m : Manifest δ} (hrow : catalog.manifests.row name = some m) :
    ∃ stored, catalog.objects.row m.payload.objectSha256 = some stored ∧
      validateObject P catalog m = .ok stored := by
  obtain ⟨stored, hobject, hlength⟩ := h.stored name m hrow
  refine ⟨stored, hobject, ?_⟩
  simp only [Archive.validateObject, hobject, hlength, ne_eq, not_true_eq_false, if_false,
    h.objects _ _ hobject]

theorem mem_manifestFiles {file : (String × String) × Manifest δ} :
    file ∈ manifestFiles catalog ↔ catalog.manifests.row file.1 = some file.2 := by
  rw [manifestFiles, mem_sortOn]
  exact Table.mem_entries

/-- Every manifest on file is listed. -/
theorem Sound.manifests_eq (h : Sound P capability catalog) :
    manifests P capability catalog = .ok ((manifestFiles catalog).map Prod.snd) := by
  refine mapM_eq_ok fun file hfile => ?_
  have hrow := mem_manifestFiles.1 hfile
  obtain ⟨stored, -, hvalid⟩ := h.validateObject hrow
  simp only [h.readable _ _ hrow, hvalid]
  rfl

omit [DecidableEq δ] in
/-- The name of a readable file is the name of its manifest. -/
theorem name_of_readable {name : String × String} {m : Manifest δ}
    (h : fileProblem P capability name m = none) : name = m.name := by
  simp only [fileProblem, Option.or_eq_none_iff, firstProblem_eq_none] at h
  simpa using h.2 (decide (name = m.name), "archive manifest filename mismatch") (by simp)

/-- An artifact is listed once. -/
theorem Sound.filter_files (h : Sound P capability catalog) {name : String × String}
    {m : Manifest δ} (hrow : catalog.manifests.row name = some m) :
    (manifestFiles catalog).filter (fun file => file.2.payload.artifactId = m.payload.artifactId) =
      [(name, m)] := by
  have hnodup : (manifestFiles catalog).Nodup :=
    (sortOn_perm _ _).nodup_iff.2 catalog.manifests.nodup_entries
  have hfilter : (manifestFiles catalog).filter
      (fun file => file.2.payload.artifactId = m.payload.artifactId) =
      (manifestFiles catalog).filter (fun file => file = (name, m)) := by
    refine List.filter_congr fun file hfile => ?_
    have hfile' := mem_manifestFiles.1 hfile
    rw [decide_eq_decide]
    constructor
    · intro hid
      have hm := h.once _ _ _ _ hfile' hrow hid
      have hname : file.1 = name := by
        rw [name_of_readable (h.readable _ _ hfile'), name_of_readable (h.readable _ _ hrow), hm]
      exact Prod.ext hname hm
    · rintro rfl
      rfl
  rw [hfilter, List.filter_eq, List.count_eq_one_of_mem hnodup (mem_manifestFiles.2 hrow)]
  rfl

/-- An artifact on file is found. -/
theorem Sound.readBoundedJsonl (h : Sound P capability catalog) {name : String × String}
    {m : Manifest δ} (hrow : catalog.manifests.row name = some m) (maxRecords maxBytes : ℕ) :
    readBoundedJsonl P capability catalog m.payload.artifactId maxRecords maxBytes =
      if ¬(0 < maxRecords ∧ maxRecords ≤ 1000) then .error "archive record budget is invalid"
      else if ¬(0 < maxBytes ∧ maxBytes ≤ 16 * 1024 * 1024) then
        .error "archive byte budget is invalid"
      else readArtifact P catalog m maxRecords maxBytes := by
  have hfilter : ((manifestFiles catalog).map Prod.snd).filter
      (fun m' => m'.payload.artifactId = m.payload.artifactId) = [m] := by
    rw [List.filter_map]
    exact congrArg (List.map Prod.snd) (h.filter_files hrow)
  simp only [Archive.readBoundedJsonl, h.manifests_eq, hfilter]

/-- What is read is on file. -/
theorem Sound.exists_of_read (h : Sound P capability catalog) {id : String}
    {maxRecords maxBytes : ℕ} {records : List ρ}
    (hread : Archive.readBoundedJsonl P capability catalog id maxRecords maxBytes = .ok records) :
    ∃ name m, catalog.manifests.row name = some m ∧ m.payload.artifactId = id := by
  simp only [Archive.readBoundedJsonl, h.manifests_eq, check_eq_ok] at hread
  obtain ⟨-, -, hread⟩ := hread
  split at hread
  · next m hm =>
    have hmem : m ∈ ((manifestFiles catalog).map Prod.snd).filter
        (fun m => m.payload.artifactId = id) := hm ▸ List.mem_singleton_self m
    obtain ⟨hmem, hid⟩ := List.mem_filter.1 hmem
    obtain ⟨file, hfile, rfl⟩ := List.mem_map.1 hmem
    exact ⟨file.1, file.2, mem_manifestFiles.1 hfile, of_decide_eq_true hid⟩
  · cases hread

/-! ## Registering -/

/-- Nothing that is stored or filed is lost. -/
structure Extends (catalog catalog' : Catalog δ) : Prop where
  objects : ∀ sha stored, catalog.objects.row sha = some stored →
    catalog'.objects.row sha = some stored
  manifests : ∀ name m, catalog.manifests.row name = some m →
    catalog'.manifests.row name = some m

theorem Extends.refl (catalog : Catalog δ) : Extends catalog catalog :=
  ⟨fun _ _ h => h, fun _ _ h => h⟩

theorem Extends.trans {a b c : Catalog δ} (h : Extends a b) (h' : Extends b c) : Extends a c :=
  ⟨fun sha stored hrow => h'.objects sha stored (h.objects sha stored hrow),
    fun name m hrow => h'.manifests name m (h.manifests name m hrow)⟩

theorem prepare_eq_ok {r : Registration} {m : Manifest δ} {stored : Bytes}
    (h : prepare P capability r = .ok (m, stored)) :
    ∃ sourceRef content, r.source = .ok (sourceRef, content) ∧
      m = manifestOf P capability r sourceRef content ∧ stored = P.compress content ∧
      argumentProblem capability r = none ∧ manifestProblem P m = none := by
  unfold prepare at h
  cases harguments : argumentProblem capability r with
  | some problem => simp [harguments] at h
  | none =>
    cases hsource : r.source with
    | error problem => simp [harguments, hsource] at h
    | ok source =>
      obtain ⟨sourceRef, content⟩ := source
      cases hcopy : copyProblem P capability r sourceRef content with
      | some problem => simp [harguments, hsource, hcopy] at h
      | none =>
        cases hmanifest : manifestProblem P (manifestOf P capability r sourceRef content) with
        | some problem => simp [harguments, hsource, hcopy, hmanifest] at h
        | none =>
          simp only [harguments, hsource, hcopy, hmanifest, Except.ok.injEq, Prod.mk.injEq] at h
          obtain ⟨rfl, rfl⟩ := h
          exact ⟨sourceRef, content, rfl, rfl, rfl, rfl, hmanifest⟩

/-- Linking an object adds it and nothing else. -/
theorem linkObject_spec (hobjects : ∀ sha stored, catalog.objects.row sha = some stored →
    P.sha256 stored = sha) (hsha : Function.Injective P.sha256) (stored : Bytes) :
    ∃ linked, linkObject P catalog (P.sha256 stored) stored = .ok linked ∧
      linked.manifests = catalog.manifests ∧ linked.index = catalog.index ∧
      ∀ sha b, linked.objects.row sha = some b ↔
        catalog.objects.row sha = some b ∨ sha = P.sha256 stored ∧ b = stored := by
  cases hrow : catalog.objects.row (P.sha256 stored) with
  | none =>
    refine ⟨{ catalog with objects := catalog.objects.insert (P.sha256 stored) stored }, ?_, rfl,
      rfl, fun sha b => ?_⟩
    · simp only [linkObject, hrow]
    · simp only [Table.insert_row hrow]
      split_ifs with h
      · subst h
        simp [hrow, eq_comm]
      · simp [h]
  | some present =>
    have hpresent : present = stored := hsha (hobjects _ _ hrow)
    refine ⟨catalog, ?_, rfl, rfl, fun sha b => ⟨.inl, ?_⟩⟩
    · simp only [linkObject, hrow, hpresent, if_true]
    · rintro (h | ⟨rfl, rfl⟩)
      · exact h
      · rw [hrow, hpresent]

/-- Publishing a manifest adds it and nothing else. -/
theorem publishManifest_spec {m : Manifest δ}
    (hsame : ∀ m', catalog.manifests.row m.name = some m' → m' = m) :
    ∃ published, publishManifest catalog m = .ok published ∧
      published.objects = catalog.objects ∧ published.index = catalog.index ∧
      ∀ name m', published.manifests.row name = some m' ↔
        catalog.manifests.row name = some m' ∨ name = m.name ∧ m' = m := by
  cases hrow : catalog.manifests.row m.name with
  | none =>
    refine ⟨{ catalog with manifests := catalog.manifests.insert m.name m }, ?_, rfl, rfl,
      fun name m' => ?_⟩
    · simp only [publishManifest, hrow]
    · simp only [Table.insert_row hrow]
      split_ifs with h
      · subst h
        simp [hrow, eq_comm]
      · simp [h]
  | some present =>
    have hpresent : present = m := hsame present hrow
    refine ⟨catalog, ?_, rfl, rfl, fun name m' => ⟨.inl, ?_⟩⟩
    · simp only [publishManifest, hrow, hpresent, if_true]
    · rintro (h | ⟨rfl, rfl⟩)
      · exact h
      · rw [hrow, hpresent]

/-- A registration whose source has a reference that `manifests` accepts, and that repeats every
manifest of its artifact. -/
def Unambiguous (P : Platform δ ρ) (capability : Capability) (catalog : Catalog δ)
    (r : Registration) : Prop :=
  ∀ sourceRef content, r.source = .ok (sourceRef, content) →
    refAllowed sourceRef ∧ ∀ m ∈ catalog.manifests.toList,
      m.payload.artifactId = (payloadOf P capability r sourceRef content).artifactId →
        Repeats P m r sourceRef content

omit [DecidableEq δ] in
theorem fileProblem_manifestOf {r : Registration} {sourceRef : String} {content : Bytes}
    (harguments : argumentProblem capability r = none)
    (hmanifest : manifestProblem P (manifestOf P capability r sourceRef content) = none)
    (href : refAllowed sourceRef) :
    fileProblem P capability (manifestOf P capability r sourceRef content).name
      (manifestOf P capability r sourceRef content) = none := by
  simp only [argumentProblem, firstProblem_eq_none, List.forall_mem_cons] at harguments
  obtain ⟨hkind, -, hsensitivity, -⟩ := harguments
  simp only [fileProblem, hmanifest, Option.none_or, firstProblem_eq_none]
  simp only [decide_eq_true_eq] at hkind hsensitivity
  simp [manifestOf, payloadOf, hkind, hsensitivity, href]

/-- The catalogue after a manifest and its object were filed. -/
theorem Sound.file (hsha : Function.Injective P.sha256) (h : Sound P capability catalog)
    {r : Registration} {sourceRef : String} {content : Bytes}
    (harguments : argumentProblem capability r = none)
    (hmanifest : manifestProblem P (manifestOf P capability r sourceRef content) = none)
    (href : refAllowed sourceRef)
    (hrepeats : ∀ m ∈ catalog.manifests.toList,
      m.payload.artifactId = (payloadOf P capability r sourceRef content).artifactId →
        Repeats P m r sourceRef content) :
    let filed := fileManifest P catalog (manifestOf P capability r sourceRef content)
      (P.compress content)
    Sound P capability filed.1 ∧ Extends catalog filed.1 := by
  have hmanifestOf : ∀ name m', catalog.manifests.row name = some m' →
      m'.payload.artifactId = (manifestOf P capability r sourceRef content).payload.artifactId →
      m' = manifestOf P capability r sourceRef content := fun name m' hrow hid =>
    (h.written name m' hrow).eq_manifestOf hsha (hrepeats m' (Table.mem_toList.2 ⟨name, hrow⟩) hid)
  have hproblem := fileProblem_manifestOf harguments hmanifest href
  obtain ⟨linked, hlink, hlinkedManifests, hlinkedIndex, hlinked⟩ :=
    linkObject_spec h.objects hsha (P.compress content)
  obtain ⟨published, hpublish, hpublishedObjects, hpublishedIndex, hpublished⟩ :=
    publishManifest_spec (m := manifestOf P capability r sourceRef content)
      (by
        rw [hlinkedManifests]
        exact fun m' hrow => hmanifestOf _ m' hrow
          (congrArg Prod.fst (name_of_readable (h.readable _ _ hrow))).symm)
  rw [hlinkedManifests] at hpublished
  have hobject : published.objects.row (P.sha256 (P.compress content)) =
      some (P.compress content) := by
    rw [hpublishedObjects]
    exact (hlinked _ _).2 (.inr ⟨rfl, rfl⟩)
  have hvalid : Archive.validateObject P published (manifestOf P capability r sourceRef content) =
      .ok (P.compress content) := by
    simp [Archive.validateObject, manifestOf, payloadOf, hobject]
  have hlink' : linkObject P catalog
      (manifestOf P capability r sourceRef content).payload.objectSha256 (P.compress content) =
      .ok linked := hlink
  simp only [fileManifest, hlink', hpublish, hvalid]
  refine ⟨⟨fun sha stored hrow => ?_, fun name m' hrow => ?_, fun name m' hrow => ?_,
    fun name m' hrow => ?_, fun name m' name' m'' hrow hrow' hid => ?_, fun id m' => ?_⟩,
    fun sha stored hrow => ?_, fun name m' hrow => ?_⟩
  · rw [hpublishedObjects] at hrow
    rcases (hlinked _ _).1 hrow with hrow | ⟨rfl, rfl⟩
    · exact h.objects _ _ hrow
    · rfl
  · rcases (hpublished _ _).1 hrow with hrow | ⟨rfl, rfl⟩
    · exact h.written _ _ hrow
    · exact ⟨r, sourceRef, content, rfl⟩
  · rcases (hpublished _ _).1 hrow with hrow | ⟨rfl, rfl⟩
    · exact h.readable _ _ hrow
    · exact hproblem
  · rcases (hpublished _ _).1 hrow with hrow | ⟨rfl, rfl⟩
    · obtain ⟨stored, hstored, hlength⟩ := h.stored _ _ hrow
      refine ⟨stored, ?_, hlength⟩
      rw [hpublishedObjects]
      exact (hlinked _ _).2 (.inl hstored)
    · exact ⟨P.compress content, hobject, rfl⟩
  · rcases (hpublished _ _).1 hrow with hrow | ⟨rfl, rfl⟩
    · rcases (hpublished _ _).1 hrow' with hrow' | ⟨rfl, rfl⟩
      · exact h.once _ _ _ _ hrow hrow' hid
      · exact hmanifestOf _ _ hrow hid
    · rcases (hpublished _ _).1 hrow' with hrow' | ⟨rfl, rfl⟩
      · exact (hmanifestOf _ _ hrow' hid.symm).symm
      · rfl
  · rw [indexManifest, Table.upsert_row, hpublishedIndex, hlinkedIndex]
    split_ifs with hid
    · constructor
      · intro heq
        obtain rfl := Option.some.inj heq
        exact ⟨_, (hpublished _ _).2 (.inr ⟨rfl, rfl⟩), hid.symm⟩
      · rintro ⟨name, hrow, hid'⟩
        rcases (hpublished _ _).1 hrow with hrow | ⟨rfl, rfl⟩
        · rw [hmanifestOf _ _ hrow (hid'.trans hid)]
        · rfl
    · rw [h.indexed]
      constructor
      · rintro ⟨name, hrow, hid'⟩
        exact ⟨name, (hpublished _ _).2 (.inl hrow), hid'⟩
      · rintro ⟨name, hrow, hid'⟩
        rcases (hpublished _ _).1 hrow with hrow | ⟨rfl, rfl⟩
        · exact ⟨name, hrow, hid'⟩
        · exact absurd hid'.symm hid
  · rw [hpublishedObjects]
    exact (hlinked _ _).2 (.inl hrow)
  · exact (hpublished _ _).2 (.inl hrow)

/-- A registration that repeats every manifest of its artifact. -/
theorem Sound.register (hsha : Function.Injective P.sha256) (h : Sound P capability catalog)
    {r : Registration} (hr : Unambiguous P capability catalog r) :
    Sound P capability (registerJsonl P capability catalog r).1 ∧
      Extends catalog (registerJsonl P capability catalog r).1 := by
  unfold registerJsonl
  cases hprepare : prepare P capability r with
  | error problem => exact ⟨h, .refl _⟩
  | ok prepared =>
    obtain ⟨m, stored⟩ := prepared
    obtain ⟨sourceRef, content, hsource, rfl, rfl, harguments, hmanifest⟩ := prepare_eq_ok hprepare
    obtain ⟨href, hrepeats⟩ := hr sourceRef content hsource
    cases hlock : r.lockAvailable with
    | false => exact ⟨h, .refl _⟩
    | true =>
      cases hcapability : r.capabilityCurrent with
      | false => exact ⟨h, .refl _⟩
      | true => exact h.file hsha harguments hmanifest href hrepeats

/-! ## Rebuilding -/

/-- The rebuilt index has a row for each manifest on file. -/
theorem Sound.rebuilt_row (h : Sound P capability catalog) {id : String} {m : Manifest δ} :
    (((manifestFiles catalog).map Prod.snd).foldl indexManifest .empty).row id = some m ↔
      ∃ name, catalog.manifests.row name = some m ∧ m.payload.artifactId = id := by
  have hfiled {m : Manifest δ} : m ∈ (manifestFiles catalog).map Prod.snd ↔
      ∃ name, catalog.manifests.row name = some m := by
    rw [List.mem_map]
    constructor
    · rintro ⟨file, hfile, rfl⟩
      exact ⟨file.1, mem_manifestFiles.1 hfile⟩
    · rintro ⟨name, hrow⟩
      exact ⟨(name, m), mem_manifestFiles.2 hrow, rfl⟩
  constructor
  · intro hrow
    rcases Table.of_row_foldl_upsert (fun m : Manifest δ => m.payload.artifactId) hrow with
      ⟨hmem, hid⟩ | hrow
    · obtain ⟨name, hname⟩ := hfiled.1 hmem
      exact ⟨name, hname, hid⟩
    · rw [Table.empty_row] at hrow
      cases hrow
  · rintro ⟨name, hname, hid⟩
    have hsome := Table.isSome_row_foldl_upsert (t := .empty) (k := id)
      (fun m : Manifest δ => m.payload.artifactId) (.inl ⟨m, hfiled.2 ⟨name, hname⟩, hid⟩)
    obtain ⟨m', hrow⟩ := Option.isSome_iff_exists.1 hsome
    rcases Table.of_row_foldl_upsert (fun m : Manifest δ => m.payload.artifactId) hrow with
      ⟨hmem, hid'⟩ | hrow'
    · obtain ⟨name', hname'⟩ := hfiled.1 hmem
      rw [h.once _ _ _ _ hname hname' (hid.trans hid'.symm)]
      exact hrow
    · rw [Table.empty_row] at hrow'
      cases hrow'

theorem Sound.rebuild (h : Sound P capability catalog) (lockAvailable capabilityCurrent : Bool) :
    Sound P capability (rebuildIndex P capability catalog lockAvailable capabilityCurrent).1 ∧
      Extends catalog (rebuildIndex P capability catalog lockAvailable capabilityCurrent).1 := by
  simp only [rebuildIndex, h.manifests_eq]
  split_ifs
  · exact ⟨h, .refl _⟩
  · exact ⟨h, .refl _⟩
  · exact ⟨⟨h.objects, h.written, h.readable, h.stored, h.once, fun id m => h.rebuilt_row⟩,
      ⟨fun _ _ hrow => hrow, fun _ _ hrow => hrow⟩⟩

/-! ## Runs -/

inductive Call
  | register (r : Registration)
  | rebuild (lockAvailable capabilityCurrent : Bool)

/-- Calls on one catalogue, each registration of which is unambiguous. -/
def unambiguousCalls (P : Platform δ ρ) (capability : Capability) : Machine (Catalog δ) Call where
  init catalog := catalog = .empty
  enabled catalog
    | .register r => Unambiguous P capability catalog r
    | .rebuild _ _ => True
  step catalog
    | .register r => (registerJsonl P capability catalog r).1
    | .rebuild lockAvailable capabilityCurrent =>
      (rebuildIndex P capability catalog lockAvailable capabilityCurrent).1

theorem sound_step (hsha : Function.Injective P.sha256) {call : Call}
    (h : Sound P capability catalog) (hcall : (unambiguousCalls P capability).enabled catalog call) :
    Sound P capability ((unambiguousCalls P capability).step catalog call) ∧
      Extends catalog ((unambiguousCalls P capability).step catalog call) := by
  cases call with
  | register r => exact h.register hsha hcall
  | rebuild lockAvailable capabilityCurrent => exact h.rebuild lockAvailable capabilityCurrent

theorem sound_of_reachable (hsha : Function.Injective P.sha256)
    (h : (unambiguousCalls P capability).Reachable catalog) : Sound P capability catalog :=
  h.invariant (fun _ hs => by rw [hs]; exact sound_empty)
    (fun _ _ _ hs hcall => (sound_step hsha hs hcall).1)

/-- After unambiguous calls an artifact has one manifest, what could be read is read with the same
records, and the rebuilt index is the index that the calls left. -/
theorem catalogue_stays_unambiguous (hsha : Function.Injective P.sha256) {catalog' : Catalog δ}
    {calls : List Call} (h : (unambiguousCalls P capability).Reachable catalog)
    (hcalls : (unambiguousCalls P capability).Steps catalog calls catalog') :
    (∀ id, ((manifestFiles catalog').filter fun file =>
        file.2.payload.artifactId = id).length ≤ 1) ∧
      (∀ id maxRecords maxBytes records,
        readBoundedJsonl P capability catalog id maxRecords maxBytes = .ok records →
          readBoundedJsonl P capability catalog' id maxRecords maxBytes = .ok records) ∧
      (∃ n, (rebuildIndex P capability catalog' true true).2 = .ok n) ∧
      ∀ id, (rebuildIndex P capability catalog' true true).1.index.row id =
        catalog'.index.row id := by
  have hbefore := sound_of_reachable hsha h
  have hafter := sound_of_reachable hsha (hcalls.reachable h)
  have hextends : Extends catalog catalog' := hcalls.relates Extends.refl
    (fun _ _ _ => Extends.trans)
    (fun s call hs hcall => (sound_step hsha (sound_of_reachable hsha hs) hcall).2) h
  refine ⟨fun id => ?_, fun id maxRecords maxBytes records hread => ?_, ?_, fun id => ?_⟩
  · cases hfiles : (manifestFiles catalog').filter fun file => file.2.payload.artifactId = id with
    | nil => simp
    | cons file files =>
      have hmem : file ∈ (manifestFiles catalog').filter fun file =>
          file.2.payload.artifactId = id := hfiles ▸ List.mem_cons_self
      obtain ⟨hmem, hid⟩ := List.mem_filter.1 hmem
      rw [← hfiles, ← of_decide_eq_true hid, hafter.filter_files (mem_manifestFiles.1 hmem)]
      rfl
  · obtain ⟨name, m, hrow, rfl⟩ := hbefore.exists_of_read hread
    have hrow' := hextends.manifests name m hrow
    obtain ⟨stored, hobject, hvalid⟩ := hbefore.validateObject hrow
    obtain ⟨stored', hobject', hvalid'⟩ := hafter.validateObject hrow'
    obtain rfl : stored' = stored :=
      Option.some.inj (hobject'.symm.trans (hextends.objects _ _ hobject))
    rw [hbefore.readBoundedJsonl hrow] at hread
    rw [hafter.readBoundedJsonl hrow']
    simpa only [readArtifact, hvalid, hvalid'] using hread
  · refine ⟨(manifestFiles catalog').length, ?_⟩
    simp [rebuildIndex, hafter.manifests_eq]
  · have hindex : (rebuildIndex P capability catalog' true true).1.index =
        ((manifestFiles catalog').map Prod.snd).foldl indexManifest .empty := by
      simp [rebuildIndex, hafter.manifests_eq]
    rw [hindex]
    exact Option.ext fun m => hafter.rebuilt_row.trans (hafter.indexed id m).symm

end

/-! ## An archiver that tries again -/

/-- Contents as their own digests, stored as they are. -/
def plainPlatform : Platform Bytes Bytes where
  sha256 := id
  compress := id
  decompress := some
  decompress_compress _ := rfl
  artifactId _ := "artifact_00000000000000000000000000000000"
  manifestSha256 p := if p.createdAt = "12:00" then "b" else "a"
  loads := .ok
  rowSchema _ := "Row.v1"
  sensitive _ := false
  sensitivePayload _ := false

def plainCapability : Capability where
  projectId := "trading-bot-v2"
  allowedKinds := ["farm_journal"]
  allowedSensitivity := ["public_safe_derived"]

def segmentRegistration (createdAt : String) : Registration where
  source := .ok ("farm.archiving", [123, 125, 10])
  streamId := "farm.cycle"
  kind := "farm_journal"
  contour := "farm_and_runtime"
  payloadSchema := "Row.v1"
  sourceRevision := "0000000000000000000000000000000000000000"
  sensitivity := "public_safe_derived"
  firstObservedAt := "11:00"
  lastObservedAt := "11:00"
  createdAt
  restoreVerified := true

def registeredOnce : Catalog Bytes :=
  (registerJsonl plainPlatform plainCapability .empty (segmentRegistration "12:00")).1

def registeredTwice : Catalog Bytes :=
  (registerJsonl plainPlatform plainCapability registeredOnce (segmentRegistration "12:05")).1

theorem catalogue_stays_unambiguous_repeated :
    readBoundedJsonl plainPlatform plainCapability registeredOnce
        "artifact_00000000000000000000000000000000" 10 1000 = .ok [[123, 125, 10]] ∧
      readBoundedJsonl plainPlatform plainCapability
        (registerJsonl plainPlatform plainCapability registeredOnce
          (segmentRegistration "12:00")).1
        "artifact_00000000000000000000000000000000" 10 1000 = .ok [[123, 125, 10]] := by
  have hempty : Unambiguous plainPlatform plainCapability .empty (segmentRegistration "12:00") := by
    intro sourceRef content hsource
    obtain ⟨rfl, rfl⟩ := Prod.mk.inj (Except.ok.inj hsource)
    decide +kernel
  have honce : Unambiguous plainPlatform plainCapability registeredOnce
      (segmentRegistration "12:00") := by
    intro sourceRef content hsource
    obtain ⟨rfl, rfl⟩ := Prod.mk.inj (Except.ok.inj hsource)
    decide +kernel
  have hreachable : (unambiguousCalls plainPlatform plainCapability).Reachable registeredOnce := by
    have hrun := Machine.reachable_run (M := unambiguousCalls plainPlatform plainCapability)
      [Call.register (segmentRegistration "12:00")] rfl ⟨hempty, trivial⟩
    exact hrun
  have hread : readBoundedJsonl plainPlatform plainCapability registeredOnce
      "artifact_00000000000000000000000000000000" 10 1000 = .ok [[123, 125, 10]] := by
    decide +kernel
  exact ⟨hread, (catalogue_stays_unambiguous (fun _ _ h => h) hreachable
    (.cons (a := Call.register (segmentRegistration "12:00")) honce (.nil _))).2.1 _ _ _ _ hread⟩

/-- The archiver registers the segment that it failed to remove again, with the later time: the
artifact cannot be read any more, and the index loses the later manifest when it is rebuilt. -/
theorem retried_segment_is_ambiguous :
    (manifestFiles registeredTwice).length = 2 ∧
      readBoundedJsonl plainPlatform plainCapability registeredOnce
        "artifact_00000000000000000000000000000000" 10 1000 = .ok [[123, 125, 10]] ∧
      readBoundedJsonl plainPlatform plainCapability registeredTwice
        "artifact_00000000000000000000000000000000" 10 1000 =
          .error "archive artifact is absent or ambiguous" ∧
      (registeredTwice.index.row "artifact_00000000000000000000000000000000").map
        (·.payload.createdAt) = some "12:05" ∧
      ((rebuildIndex plainPlatform plainCapability registeredTwice true true).1.index.row
        "artifact_00000000000000000000000000000000").map (·.payload.createdAt) = some "12:00" := by
  decide +kernel

end ResearchLab.Archive
