import Mathlib
import ResearchLab.Foundation.Related
import ResearchLab.Search.Panel

/-!
# A valid panel represents the whole family

What the builder and the validator of panels guarantee: the columns are the executions of the
family, the entries the returns of their observation sets, and nothing else is accepted.
-/
namespace ResearchLab.Search
open Foundation

variable {π ρ : Type}

/-! ## The data identity of a bound family -/

theorem normalizeSnapshotBindings_ok {bindings normalized : List Member}
    (h : normalizeSnapshotBindings bindings = .ok normalized) {member : Member}
    (hmember : member ∈ bindings) : member.snapshotId ≠ "" ∧ member.evidenceHash ≠ "" := by
  simp only [normalizeSnapshotBindings, check_eq_ok, not_or, not_exists, not_and] at h
  obtain ⟨⟨-, hcomplete⟩, -, -⟩ := h
  obtain ⟨-, -, hsnapshot, hevidence, -⟩ := hcomplete member (mem_sortOn.2 hmember)
  exact ⟨hsnapshot, hevidence⟩

/-- The data identity that a bound family expects is complete. -/
theorem Definition.Valid.expectedData_ne {C : Compiler π} {definition : Definition π}
    (h : definition.Valid C) (hbound : definition.dataBinding.status = .bound) (symbol : String) :
    (definition.expectedData symbol).1 ≠ "" ∧ (definition.expectedData symbol).2 ≠ "" := by
  have hbinding := h.binding
  rw [checkBinding, check_eq_ok, hbound] at hbinding
  obtain ⟨hids, hmembers⟩ := hbinding
  simp only [true_and, not_not] at hids
  rw [Definition.expectedData]
  cases hfind : definition.dataBinding.members.reverse.find? fun item =>
      item.symbol = symbol ∧ item.timeframe = definition.origin.timeframe with
  | none => exact hids
  | some member =>
    have hmember := List.mem_reverse.1 (List.mem_of_find?_eq_some hfind)
    rw [if_pos (List.ne_nil_of_mem hmember), checkMembers, bind_eq_ok] at hmembers
    obtain ⟨normalized, hnormalized, -⟩ := hmembers
    exact normalizeSnapshotBindings_ok hnormalized hmember

theorem Validated.rowData [DecidableEq π] {L : Laboratory π} {evidence : Evidence π}
    {counts : Counts} (h : Validated L evidence counts)
    (hbound : evidence.searchFamilyDefinition.dataBinding.status = .bound) {row : TrialRow π}
    (hrow : row ∈ evidence.trials) (hdisposition : row.terminalDisposition ≠ .executionCap) :
    (row.dataSnapshotId, row.dataEvidenceHash) =
      evidence.searchFamilyDefinition.expectedData row.symbol := by
  have hdata := h.data
  rw [checkData, if_pos hbound, forM_eq_ok] at hdata
  have hrow := hdata row hrow
  simp only [checkRowData, check_eq_ok, not_and, not_not] at hrow
  exact hrow.2.1 hdisposition

/-! ## How a valid panel is built -/

/-- The included entry of an observation set. -/
def ObservationSet.entry (value : ObservationSet ρ) : IncludedTrial :=
  ⟨value.trialId, value.observationSetId, .evaluated⟩

/-- The coverage of a panel that includes every trial. -/
def fullCoverage (evidence : Evidence π) (sets : List (ObservationSet ρ)) : Coverage where
  selectedCount := evidence.trials.length
  scopeSelectedCount := evidence.trials.length
  includedCount := evidence.trials.length
  excludedCount := 0
  included := (sortOn (fun value => value.trialId) sets).map ObservationSet.entry
  excluded := []

/-- A row of the evidence with its observation set. -/
structure Placed (H : PanelHashes ρ) (evidence : Evidence π) (target : String × String)
    (row : TrialRow π) (value : ObservationSet ρ) : Prop where
  trialId : value.trialId = row.executionId
  scope : row.scope = target
  evaluated : row.terminalDisposition = .evaluated
  identity : value.identity = expectedIdentity evidence row
  valid : validateValidationObservationSet H value = .ok ()

/-- The facts behind a valid panel. -/
structure BuiltFrom [DecidableEq π] (H : PanelHashes ρ) (L : Laboratory π) (evidence : Evidence π)
    (sets : List (ObservationSet ρ)) (counts : Counts) (target : String × String)
    (panel : Panel ρ) : Prop where
  checked : validateSearchTrialEvidence L evidence true = .ok counts
  named : "" ∉ sets.map fun value => value.trialId
  trialIds : (sets.map fun value => value.trialId).Nodup
  inScope : targetScope sets = .ok target
  placed : ∀ row ∈ evidence.trials, ∃ value ∈ sets, Placed H evidence target row value
  known : ∀ value ∈ sets, value.trialId ∈ evidence.trials.map fun row => row.executionId
  effective : counts.effectiveNTrials = evidence.trials.length
  assembled : assemblePanel H evidence target counts.effectiveNTrials (fullCoverage evidence sets)
    (sortOn (fun value => value.trialId) sets) = .ok panel

section
variable {H : PanelHashes ρ} {evidence : Evidence π} {sets : List (ObservationSet ρ)}
  {target : String × String}

theorem placeTrial_inl {row : TrialRow π} {trial : IncludedTrial}
    (h : placeTrial H evidence sets target row = .ok (.inl trial)) :
    ∃ value ∈ sets, Placed H evidence target row value := by
  rw [placeTrial] at h
  by_cases hscope : row.scope = target
  swap
  · simp [hscope] at h
  by_cases hevaluated : row.terminalDisposition = .evaluated
  swap
  · simp [hscope, hevaluated] at h
  simp only [hscope, hevaluated, ne_eq, not_true_eq_false, if_false] at h
  cases hfind : sets.find? (·.trialId = row.executionId) with
  | none => simp [hfind] at h
  | some value =>
    simp only [hfind, check_eq_ok, bind_eq_ok, not_not] at h
    obtain ⟨hidentity, _, hvalid, -⟩ := h
    exact ⟨value, List.mem_of_find?_eq_some hfind, by simpa using List.find?_some hfind, hscope,
      hevaluated, hidentity, hvalid⟩

theorem placeTrial_of_placed (hids : (sets.map fun value => value.trialId).Nodup)
    {row : TrialRow π} {value : ObservationSet ρ} (hvalue : value ∈ sets)
    (h : Placed H evidence target row value) :
    placeTrial H evidence sets target row = .ok (.inl value.entry) := by
  have hfind : sets.find? (·.trialId = value.trialId) = some value :=
    (find?_key_eq_some hids).2 ⟨hvalue, rfl⟩
  simp only [placeTrial, h.scope, h.evaluated, ← h.trialId, hfind, h.identity, h.valid, ne_eq,
    not_true_eq_false, if_false, ObservationSet.entry]
  rfl

theorem included_inl (included : List IncludedTrial) :
    (included.map (Sum.inl (β := ExcludedTrial))).filterMap Sum.getLeft? = included := by
  rw [List.filterMap_map]
  exact List.filterMap_some

theorem excluded_inl (included : List IncludedTrial) :
    (included.map (Sum.inl (β := ExcludedTrial))).filterMap Sum.getRight? = [] := by
  rw [List.filterMap_map]
  exact List.filterMap_eq_nil_iff.2 fun _ _ => rfl

/-- Every placed row is included or excluded. -/
theorem length_included_add_excluded (placed : List (IncludedTrial ⊕ ExcludedTrial)) :
    (placed.filterMap Sum.getLeft?).length + (placed.filterMap Sum.getRight?).length =
      placed.length := by
  induction placed with
  | nil => rfl
  | cons x placed ih =>
    cases x with
    | inl trial =>
      simp only [List.filterMap_cons, Sum.getLeft?_inl, Sum.getRight?_inl, List.length_cons]
      omega
    | inr trial =>
      simp only [List.filterMap_cons, Sum.getLeft?_inr, Sum.getRight?_inr, List.length_cons]
      omega

/-- Where nothing is excluded, every row is included. -/
theorem mem_left_of_no_excluded {placed : List (IncludedTrial ⊕ ExcludedTrial)}
    (h : placed.filterMap Sum.getRight? = []) {x : IncludedTrial ⊕ ExcludedTrial}
    (hx : x ∈ placed) : ∃ trial, x = .inl trial := by
  cases x with
  | inl trial => exact ⟨trial, rfl⟩
  | inr trial =>
    have hmem : trial ∈ placed.filterMap Sum.getRight? := List.mem_filterMap.2 ⟨_, hx, rfl⟩
    rw [h] at hmem
    exact absurd hmem List.not_mem_nil

/-- The trials of the sets are those of the evidence. -/
theorem trialIds_perm (hids : (sets.map fun value => value.trialId).Nodup)
    (hexecutions : (evidence.trials.map fun row => row.executionId).Nodup)
    (hplaced : ∀ row ∈ evidence.trials, ∃ value ∈ sets, Placed H evidence target row value)
    (hknown : ∀ value ∈ sets, value.trialId ∈ evidence.trials.map fun row => row.executionId) :
    (sets.map fun value => value.trialId).Perm (evidence.trials.map fun row => row.executionId) := by
  refine (List.perm_ext_iff_of_nodup hids hexecutions).2 fun trialId => ⟨fun h => ?_, fun h => ?_⟩
  · obtain ⟨value, hvalue, rfl⟩ := List.mem_map.1 h
    exact hknown value hvalue
  · obtain ⟨row, hrow, rfl⟩ := List.mem_map.1 h
    obtain ⟨value, hvalue, hp⟩ := hplaced row hrow
    exact List.mem_map.2 ⟨value, hvalue, hp.trialId⟩

/-- What the rows are placed as, where each has its set. -/
theorem mapM_placeTrial (hids : (sets.map fun value => value.trialId).Nodup)
    (hexecutions : (evidence.trials.map fun row => row.executionId).Nodup)
    (hplaced : ∀ row ∈ evidence.trials, ∃ value ∈ sets, Placed H evidence target row value)
    (hknown : ∀ value ∈ sets, value.trialId ∈ evidence.trials.map fun row => row.executionId) :
    ∃ included : List IncludedTrial, evidence.trials.mapM (placeTrial H evidence sets target) =
        .ok (included.map Sum.inl) ∧ included.Perm (sets.map ObservationSet.entry) := by
  classical
  have hperm := trialIds_perm hids hexecutions hplaced hknown
  rcases isEmpty_or_nonempty (ObservationSet ρ) with hempty | hnonempty
  · have htrials : evidence.trials = [] := List.eq_nil_iff_forall_not_mem.2
      fun row hrow => (hplaced row hrow).elim fun value _ => hempty.false value
    have hsets : sets = [] := List.eq_nil_iff_forall_not_mem.2 fun value _ => hempty.false value
    exact ⟨[], by rw [htrials]; rfl, by rw [hsets]; rfl⟩
  choose! setOf hmem hsetOf using hplaced
  refine ⟨evidence.trials.map fun row => (setOf row).entry, ?_, ?_⟩
  · rw [List.map_map]
    exact mapM_eq_ok fun row hrow => placeTrial_of_placed hids (hmem row hrow) (hsetOf row hrow)
  · have hsets : (evidence.trials.map setOf).Perm sets := by
      have hkeys : (evidence.trials.map setOf).map (fun value => value.trialId) =
          evidence.trials.map fun row => row.executionId := by
        rw [List.map_map]
        exact List.map_congr_left fun row hrow => (hsetOf row hrow).trialId
      have hnodup : (evidence.trials.map setOf).Nodup :=
        List.Nodup.of_map (fun value => value.trialId) (hkeys ▸ hexecutions)
      have hsubset : evidence.trials.map setOf ⊆ sets := by
        intro value hvalue
        obtain ⟨row, hrow, rfl⟩ := List.mem_map.1 hvalue
        exact hmem row hrow
      refine (hnodup.subperm hsubset).perm_of_length_le ?_
      have hlength := hperm.length_eq
      rw [List.length_map, List.length_map] at hlength
      rw [List.length_map, hlength]
    have hentries := hsets.map ObservationSet.entry
    rwa [List.map_map] at hentries

/-- The coverage of a panel that includes every trial. -/
theorem coverageOf_full (hids : (sets.map fun value => value.trialId).Nodup)
    {included : List IncludedTrial} (hincluded : included.Perm (sets.map ObservationSet.entry))
    (hlength : included.length = evidence.trials.length)
    (hscope : ∀ row ∈ evidence.trials, row.scope = target) :
    coverageOf evidence target included [] = fullCoverage evidence sets := by
  have hkeys : (included.map IncludedTrial.trialId).Nodup := by
    rw [(hincluded.map IncludedTrial.trialId).nodup_iff, List.map_map]
    exact hids
  have hcount : evidence.trials.countP (fun row => row.scope = target) = evidence.trials.length :=
    List.countP_eq_length.2 fun row hrow => by simpa using hscope row hrow
  rw [coverageOf, fullCoverage, hcount, hlength, sortOn_eq_of_perm hincluded hkeys, sortOn_map]
  rfl

variable [DecidableEq π] {L : Laboratory π}

/-- A panel is valid if and only if it is assembled from one set for each trial of the evidence,
all trials were evaluated in one scope, and the family counts for no others. -/
theorem buildSearchTrialPanel_eq_valid_iff {allowUnavailable : Bool} {panel : Panel ρ} :
    buildSearchTrialPanel H L evidence sets allowUnavailable = .ok (.valid panel) ↔
      ∃ counts target, BuiltFrom H L evidence sets counts target panel := by
  constructor
  · intro h
    cases hchecked : validateSearchTrialEvidence L evidence true with
    | error e => simp [buildSearchTrialPanel, hchecked] at h
    | ok counts =>
      simp only [buildSearchTrialPanel, hchecked, check_eq_ok, bind_eq_ok, not_or, not_not] at h
      obtain ⟨⟨hnamed, hids⟩, target, htarget, placed, hplaced, hunknown, h⟩ := h
      have hvalid := (validateSearchTrialEvidence_ok hchecked).1
      by_cases hblocking : blockingExclusions counts.effectiveNTrials
          (placed.filterMap Sum.getLeft?) (placed.filterMap Sum.getRight?) = []
      swap
      · rw [if_pos hblocking] at h
        split_ifs at h
        simp at h
      rw [if_neg (not_not.2 hblocking)] at h
      simp only [bind_eq_ok, Except.ok.injEq, PanelResult.valid.injEq, exists_eq_right] at h
      have heffective : counts.effectiveNTrials = (placed.filterMap Sum.getLeft?).length := by
        by_contra hne
        simp [blockingExclusions, hne] at hblocking
      -- the family counts for no fewer trials than there are rows, so none is left out
      have hrows := (mapM_eq_ok_iff.1 hplaced).length_eq
      have hle := hvalid.definition.runTotal_le_trialCount
      have hsum := length_included_add_excluded placed
      have hlength := hvalid.length_trials
      rw [← hvalid.effective, heffective, ← hlength] at hle
      have hexcluded : placed.filterMap Sum.getRight? = [] := List.eq_nil_of_length_eq_zero (by omega)
      have hall : ∀ row ∈ evidence.trials, ∃ value ∈ sets, Placed H evidence target row value := by
        intro row hrow
        obtain ⟨x, hx, hplace⟩ := exists_related_left (mapM_eq_ok_iff.1 hplaced) hrow
        obtain ⟨trial, rfl⟩ := mem_left_of_no_excluded hexcluded hx
        exact placeTrial_inl hplace
      have hknown : ∀ value ∈ sets,
          value.trialId ∈ evidence.trials.map fun row => row.executionId := by
        intro value hvalue
        have hnone := List.filter_eq_nil_iff.1 hunknown value.trialId
          (List.mem_map_of_mem hvalue)
        simpa using hnone
      obtain ⟨included, hmapM, hperm⟩ := mapM_placeTrial hids hvalid.ids.1 hall hknown
      obtain rfl := Except.ok.inj (hplaced.symm.trans hmapM)
      rw [hexcluded, included_inl] at h
      have hincluded : included.length = evidence.trials.length := by
        rw [hrows, List.length_map]
      rw [coverageOf_full hids hperm hincluded fun row hrow =>
        (hall row hrow).elim fun _ hp => hp.2.scope] at h
      refine ⟨counts, target, hchecked, hnamed, hids, htarget, hall, hknown, ?_, h⟩
      rw [heffective, included_inl, hincluded]
  · rintro ⟨counts, target, hchecked, hnamed, hids, htarget, hall, hknown, heffective, hassembled⟩
    have hvalid := (validateSearchTrialEvidence_ok hchecked).1
    obtain ⟨included, hmapM, hperm⟩ := mapM_placeTrial hids hvalid.ids.1 hall hknown
    have hincluded : included.length = evidence.trials.length := by
      rw [(mapM_eq_ok_iff.1 hmapM).length_eq, List.length_map]
    have hunknown : (sets.map fun value => value.trialId).filter
        (· ∉ evidence.trials.map fun row => row.executionId) = [] := by
      refine List.filter_eq_nil_iff.2 fun trialId htrial => ?_
      obtain ⟨value, hvalue, rfl⟩ := List.mem_map.1 htrial
      simpa using hknown value hvalue
    have hblocking : blockingExclusions counts.effectiveNTrials included [] = [] := by
      simp [blockingExclusions, heffective, hincluded]
    rw [← coverageOf_full hids hperm hincluded fun row hrow =>
      (hall row hrow).elim fun _ hp => hp.2.scope] at hassembled
    simp only [buildSearchTrialPanel, hchecked, hnamed, hids, not_true_eq_false, or_self, if_false]
    refine bind_eq_ok.2 ⟨target, htarget, bind_eq_ok.2 ⟨_, hmapM, ?_⟩⟩
    rw [hunknown, included_inl, excluded_inl, hblocking, if_neg (not_not.2 rfl), if_neg (not_not.2 rfl)]
    exact bind_eq_ok.2 ⟨panel, hassembled, rfl⟩

/-! ## What a valid panel says -/

/-- A panel of the sets that represents the whole family of the evidence. -/
structure Represents (H : PanelHashes ρ) (L : Laboratory π) (evidence : Evidence π)
    (sets : List (ObservationSet ρ)) (panel : Panel ρ) : Prop where
  columns : ∃ rows, L.expectedExecutionIdentityRows evidence.searchFamilyDefinition
      evidence.searchFamilyId = .ok rows ∧
    panel.trialColumns = sortOn id (rows.map fun row => row.executionId)
  distinct : panel.trialColumns.Nodup
  evaluated : ∀ row ∈ evidence.trials, row.terminalDisposition = .evaluated ∧
    row.scope = (panel.symbol, panel.strategyFamily)
  reordered : panel.observationSets.Perm sets
  trialIds : (panel.observationSets.map fun value => value.trialId) = panel.trialColumns
  valid : ∀ value ∈ panel.observationSets, validateValidationObservationSet H value = .ok () ∧
    value.identity = [panel.symbol, panel.strategyFamily,
      evidence.searchFamilyDefinition.origin.timeframe,
      (evidence.searchFamilyDefinition.expectedData panel.symbol).1,
      (evidence.searchFamilyDefinition.expectedData panel.symbol).2, evidence.searchFamilyId]
  axis : ∀ value ∈ panel.observationSets, value.axis = panel.timeAxis
  matrix : ∀ t c : ℕ, ((panel.matrix[t]?).bind fun row => row[c]?) =
    (panel.observationSets[c]?).bind fun value =>
      (value.observations[t]?).map fun row => row.returnValue

omit [DecidableEq π] in
theorem assemblePanel_ok {effective : ℤ} {coverage : Coverage} {panel : Panel ρ}
    (h : assemblePanel H evidence target effective coverage sets = .ok panel) :
    ∃ first ∈ sets, (∀ value ∈ sets, value.axis = first.axis) ∧
      panel = identifyPanel H (panelBody evidence target effective coverage first sets) := by
  cases sets with
  | nil => simp [assemblePanel] at h
  | cons first rest =>
    simp only [assemblePanel, check_eq_ok, Except.ok.injEq, not_exists, not_and, not_not] at h
    obtain ⟨haxis, -, -, -, rfl⟩ := h
    exact ⟨first, List.mem_cons_self, List.forall_mem_cons.2 ⟨rfl, haxis⟩, rfl⟩

/-- Where every item has a value, the values are in the places of the items. -/
theorem getElem?_filterMap_of_isSome {α β : Type} {f : α → Option β} {l : List α}
    (h : ∀ x ∈ l, (f x).isSome) (c : ℕ) : (l.filterMap f)[c]? = (l[c]?).bind f := by
  induction l generalizing c with
  | nil => rfl
  | cons x l ih =>
    obtain ⟨y, hy⟩ := Option.isSome_iff_exists.1 (h x List.mem_cons_self)
    rw [List.filterMap_cons_some hy]
    cases c with
    | zero => exact hy.symm
    | succ c =>
      rw [List.getElem?_cons_succ, List.getElem?_cons_succ]
      exact ih (fun z hz => h z (List.mem_cons_of_mem _ hz)) c

/-- The entries of the matrix of sets that share their time axis. -/
theorem matrix_entry {orderedSets : List (ObservationSet ρ)} {n : ℕ}
    (h : ∀ value ∈ orderedSets, value.observations.length = n) (t c : ℕ) :
    ((((List.range n).map (matrixRow orderedSets))[t]?).bind fun row => row[c]?) =
      (orderedSets[c]?).bind fun value =>
        (value.observations[t]?).map fun row => row.returnValue := by
  rw [List.getElem?_map]
  rcases lt_or_ge t n with ht | ht
  · rw [List.getElem?_range ht, Option.map_some, Option.bind_some, matrixRow]
    refine getElem?_filterMap_of_isSome (fun value hvalue => ?_) c
    rw [List.getElem?_eq_getElem ((h value hvalue).symm ▸ ht)]
    rfl
  · rw [List.getElem?_eq_none (by simpa using ht), Option.map_none, Option.bind_none]
    cases hvalue : orderedSets[c]? with
    | none => rfl
    | some value =>
      have hlength := h value (List.mem_of_getElem? hvalue)
      rw [Option.bind_some, List.getElem?_eq_none (hlength ▸ ht), Option.map_none]

omit [DecidableEq π] in
theorem targetScope_ok (h : targetScope sets = .ok target) :
    ∀ value ∈ sets, value.scope = target := by
  cases sets with
  | nil => simp [targetScope] at h
  | cons first rest =>
    simp only [targetScope, check_eq_ok, Except.ok.injEq, not_exists, not_and, not_not] at h
    obtain ⟨hrest, -, rfl⟩ := h
    exact List.forall_mem_cons.2 ⟨rfl, hrest⟩

end

section
variable [DecidableEq π] {H : PanelHashes ρ} {L : Laboratory π} {evidence : Evidence π}
  {sets : List (ObservationSet ρ)} {target : String × String} {counts : Counts} {panel : Panel ρ}

omit [DecidableEq π] in
theorem checkComplete_bound (h : checkComplete evidence counts = .ok ()) :
    evidence.searchFamilyDefinition.dataBinding.status = .bound := by
  simp only [checkComplete, check_eq_ok, not_not] at h
  exact h.1

/-- What a set of a bound family has to carry, in terms of the definition of the family. -/
theorem expectedIdentity_eq (h : validateSearchTrialEvidence L evidence true = .ok counts)
    {row : TrialRow π} (hrow : row ∈ evidence.trials) (hevaluated : row.terminalDisposition = .evaluated)
    (hscope : row.scope = target) :
    expectedIdentity evidence row = [target.1, target.2,
      evidence.searchFamilyDefinition.origin.timeframe,
      (evidence.searchFamilyDefinition.expectedData target.1).1,
      (evidence.searchFamilyDefinition.expectedData target.1).2, evidence.searchFamilyId] := by
  obtain ⟨hvalid, hcomplete⟩ := validateSearchTrialEvidence_ok h
  have hbound := checkComplete_bound (hcomplete rfl)
  have hdata := hvalid.rowData hbound hrow (by simp [hevaluated])
  obtain ⟨hsnapshot, hevidence⟩ := hvalid.definition.expectedData_ne hbound row.symbol
  subst hscope
  rw [← hdata] at hsnapshot hevidence
  simp only [expectedIdentity, if_neg hsnapshot, if_neg hevidence, TrialRow.scope, ← hdata]

theorem BuiltFrom.represents (h : BuiltFrom H L evidence sets counts target panel) :
    Represents H L evidence sets panel := by
  have hvalid := (validateSearchTrialEvidence_ok h.checked).1
  have hperm := trialIds_perm h.trialIds hvalid.ids.1 h.placed h.known
  obtain ⟨first, -, haxis, rfl⟩ := assemblePanel_ok h.assembled
  have hsorted : ((sortOn (fun value => value.trialId) sets).map fun value => value.trialId) =
      sortOn id (evidence.trials.map fun row => row.executionId) := by
    rw [map_sortOn]
    exact sortOn_eq_of_perm hperm (by simpa using h.trialIds)
  refine ⟨⟨_, hvalid.rows, ?_⟩, ?_, fun row hrow => ?_, sortOn_perm _ sets, rfl,
    fun value hvalue => ?_, haxis, fun t c => matrix_entry (fun value hvalue => ?_) t c⟩
  · rw [List.map_map]
    exact hsorted
  · change ((sortOn (fun value => value.trialId) sets).map fun value => value.trialId).Nodup
    rw [map_sortOn]
    exact (sortOn_perm id _).nodup_iff.2 h.trialIds
  · obtain ⟨value, -, hplaced⟩ := h.placed row hrow
    exact ⟨hplaced.evaluated, hplaced.scope⟩
  · have hvalue : value ∈ sets := mem_sortOn.1 hvalue
    obtain ⟨row, hrow, hid⟩ := List.mem_map.1 (h.known value hvalue)
    obtain ⟨value', hvalue', hplaced⟩ := h.placed row hrow
    have hsame : value' = value := List.inj_on_of_nodup_map h.trialIds hvalue' hvalue
      (hplaced.trialId.trans hid)
    subst hsame
    refine ⟨hplaced.valid, ?_⟩
    rw [hplaced.identity]
    exact expectedIdentity_eq h.checked hrow hplaced.evaluated hplaced.scope
  · have hlength := congrArg List.length (haxis value hvalue)
    rwa [ObservationSet.axis, List.length_map] at hlength

/-! ## The validator accepts what was built -/

/-- No two of the sets share a content hash. -/
def CollisionFree (H : PanelHashes ρ) (sets : List (ObservationSet ρ)) : Prop :=
  ∀ value ∈ sets, ∀ other ∈ sets,
    H.observationSet value.toObservationSetBody = H.observationSet other.toObservationSetBody →
      value.toObservationSetBody = other.toObservationSetBody

theorem validateObservation_ok {value : ObservationSet ρ} {row : Observation ρ}
    (h : validateObservation H value row = .ok ()) :
    H.finite row.returnValue = true ∧
      row.observationId = "vobs_" ++ H.observation row.toObservationBody := by
  simp only [validateObservation, check_eq_ok, not_not] at h
  exact ⟨h.2.2.2.2.1, h.2.2.2.2.2.1⟩

theorem validateValidationObservationSet_ok {value : ObservationSet ρ}
    (h : validateValidationObservationSet H value = .ok ()) :
    (∀ row ∈ value.observations, validateObservation H value row = .ok ()) ∧
      validateTimeGrid value.axis value.timeGrid = .ok () ∧
      value.observationSetId = "vos_" ++ H.observationSet value.toObservationSetBody := by
  rw [validateValidationObservationSet, check_eq_ok] at h
  cases hobservations : value.observations with
  | nil => simp [hobservations] at h
  | cons first rest =>
    simp only [hobservations, check_eq_ok, bind_eq_ok, not_not] at h
    obtain ⟨-, -, -, _, hrows, _, hgrid, -, -, hid, -⟩ := h
    exact ⟨forM_eq_ok.1 hrows, hgrid, hid⟩

/-- Valid sets with one id are the same, if no two of the sets share a content hash. -/
theorem CollisionFree.eq_of_id (hfree : CollisionFree H sets) {value other : ObservationSet ρ}
    (hvalue : value ∈ sets) (hother : other ∈ sets)
    (hvalid : ∀ value ∈ sets, validateValidationObservationSet H value = .ok ())
    (hid : value.observationSetId = other.observationSetId) : value = other := by
  have hhash : H.observationSet value.toObservationSetBody =
      H.observationSet other.toObservationSetBody := by
    rw [(validateValidationObservationSet_ok (hvalid value hvalue)).2.2,
      (validateValidationObservationSet_ok (hvalid other hother)).2.2] at hid
    simpa using hid
  have hbody := hfree value hvalue other hother hhash
  cases value
  cases other
  simp_all

theorem nodup_observationSetIds (hids : (sets.map fun value => value.trialId).Nodup)
    (hvalid : ∀ value ∈ sets, validateValidationObservationSet H value = .ok ())
    (hfree : CollisionFree H sets) : (sets.map ObservationSet.observationSetId).Nodup :=
  (List.Nodup.of_map _ hids).map_on fun _ hvalue _ hother heq =>
    hfree.eq_of_id hvalue hother hvalid heq

omit [DecidableEq π] in
theorem targetScope_perm (h : targetScope sets = .ok target) {sets' : List (ObservationSet ρ)}
    (hperm : sets'.Perm sets) : targetScope sets' = .ok target := by
  have hscope := targetScope_ok h
  cases sets with
  | nil => simp [targetScope] at h
  | cons first rest =>
    cases sets' with
    | nil => exact absurd hperm.nil_eq (List.cons_ne_nil _ _).symm
    | cons first' rest' =>
      have hscope' : ∀ value ∈ first' :: rest', value.scope = target :=
        fun value hvalue => hscope value (hperm.mem_iff.1 hvalue)
      have hfirst' := hscope' first' List.mem_cons_self
      have hsame := hfirst'.trans (hscope first List.mem_cons_self).symm
      simp only [ObservationSet.scope, Prod.mk.injEq] at hsame
      simp only [targetScope, check_eq_ok, Except.ok.injEq, not_exists, not_and, not_not] at h ⊢
      refine ⟨fun value hvalue => (hscope' value (List.mem_cons_of_mem _ hvalue)).trans
        hfirst'.symm, ?_, hfirst'⟩
      rw [hsame.1, hsame.2]
      exact h.2.1

/-- Building from the same sets in another order gives the same panel. -/
theorem BuiltFrom.perm (h : BuiltFrom H L evidence sets counts target panel)
    {sets' : List (ObservationSet ρ)} (hperm : sets'.Perm sets) :
    BuiltFrom H L evidence sets' counts target panel := by
  have hids : (sets'.map fun value => value.trialId).Perm (sets.map fun value => value.trialId) :=
    hperm.map _
  have hsorted : sortOn (fun value => value.trialId) sets' =
      sortOn (fun value => value.trialId) sets :=
    sortOn_eq_of_perm hperm (hids.nodup_iff.2 h.trialIds)
  refine ⟨h.checked, fun hnamed => h.named (hids.mem_iff.1 hnamed), hids.nodup_iff.2 h.trialIds,
    targetScope_perm h.inScope hperm, fun row hrow => ?_,
    fun value hvalue => h.known value (hperm.mem_iff.1 hvalue), h.effective, ?_⟩
  · obtain ⟨value, hvalue, hplaced⟩ := h.placed row hrow
    exact ⟨value, hperm.mem_iff.2 hvalue, hplaced⟩
  · have hcoverage : fullCoverage evidence sets' = fullCoverage evidence sets := by
      rw [fullCoverage, fullCoverage, hsorted]
    rw [hcoverage, hsorted]
    exact h.assembled

/-- Every trial of a family that has a panel is expected in it. -/
theorem Represents.expectedTrials (h : Represents H L evidence sets panel)
    (hvalid : Validated L evidence counts) :
    Search.expectedTrials evidence (panel.symbol, panel.strategyFamily) = panel.trialColumns := by
  obtain ⟨rows, hrows, hcolumns⟩ := h.columns
  obtain rfl := Except.ok.inj (hvalid.rows.symm.trans hrows)
  have hall : evidence.trials.filter (fun row => row.terminalDisposition = .evaluated ∧
      row.scope = (panel.symbol, panel.strategyFamily)) = evidence.trials :=
    List.filter_eq_self.2 fun row hrow => decide_eq_true (h.evaluated row hrow)
  rw [Search.expectedTrials, hall, hcolumns, List.map_map]
  rfl

theorem matrix_shape {orderedSets : List (ObservationSet ρ)} {n : ℕ}
    (h : ∀ value ∈ orderedSets, value.observations.length = n) :
    ∀ row ∈ (List.range n).map (matrixRow orderedSets), row.length = orderedSets.length := by
  intro row hrow
  obtain ⟨t, ht, rfl⟩ := List.mem_map.1 hrow
  rw [matrixRow, List.length_filterMap_eq_countP]
  refine List.countP_eq_length.2 fun value hvalue => ?_
  rw [List.getElem?_eq_getElem ((h value hvalue).symm ▸ List.mem_range.1 ht)]
  rfl

theorem mem_matrixRow {orderedSets : List (ObservationSet ρ)} {t : ℕ} {x : ρ}
    (h : x ∈ matrixRow orderedSets t) :
    ∃ value ∈ orderedSets, ∃ row ∈ value.observations, row.returnValue = x := by
  obtain ⟨value, hvalue, hx⟩ := List.mem_filterMap.1 h
  obtain ⟨row, hrow, hx⟩ := Option.map_eq_some_iff.1 hx
  exact ⟨value, hvalue, row, List.mem_of_getElem? hrow, hx⟩

/-- The panel of all sets, on the time axis of the first. -/
def fullPanel (H : PanelHashes ρ) (evidence : Evidence π) (target : String × String) (effective : ℤ)
    (first : ObservationSet ρ) (sets : List (ObservationSet ρ)) : Panel ρ :=
  identifyPanel H (panelBody evidence target effective (fullCoverage evidence sets) first
    (sortOn (fun value => value.trialId) sets))

section
variable (h : BuiltFrom H L evidence sets counts target panel)
include h

theorem BuiltFrom.length_sets : sets.length = evidence.trials.length := by
  have hvalid := (validateSearchTrialEvidence_ok h.checked).1
  have hids := (trialIds_perm h.trialIds hvalid.ids.1 h.placed h.known).length_eq
  rwa [List.length_map, List.length_map] at hids

theorem BuiltFrom.valid_sets :
    ∀ value ∈ sets, validateValidationObservationSet H value = .ok () :=
  fun value hvalue => (h.represents.valid value (h.represents.reordered.mem_iff.2 hvalue)).1

variable {first : ObservationSet ρ}

theorem BuiltFrom.checkPanelColumns (hfree : CollisionFree H sets) :
    Search.checkPanelColumns (fullPanel H evidence target counts.effectiveNTrials first sets) =
      .ok () := by
  have hperm := sortOn_perm (fun value : ObservationSet ρ => value.trialId) sets
  have hcolumns : (fullPanel H evidence target counts.effectiveNTrials first
      sets).trialColumns.Pairwise (· < ·) := by
    change ((sortOn (fun value => value.trialId) sets).map fun value => value.trialId).Pairwise _
    rw [map_sortOn]
    exact sortOn_id_pairwise_lt h.trialIds
  have hids : (fullPanel H evidence target counts.effectiveNTrials first
      sets).observationSetIds.Nodup :=
    (hperm.map _).nodup_iff.2 (nodup_observationSetIds h.trialIds h.valid_sets hfree)
  simp only [Search.checkPanelColumns, hcolumns, hids]
  simp [fullPanel, identifyPanel, panelBody]

theorem BuiltFrom.checkPanelCounts :
    Search.checkPanelCounts (fullPanel H evidence target counts.effectiveNTrials first sets)
      (fullPanel H evidence target counts.effectiveNTrials first sets).trialColumns
      counts.effectiveNTrials = .ok () := by
  have hlength := h.length_sets
  have hsorted := (sortOn_perm (fun value : ObservationSet ρ => value.trialId) sets).length_eq
  simp [Search.checkPanelCounts, fullPanel, identifyPanel, panelBody, hsorted, hlength, h.effective]

theorem BuiltFrom.checkPanelMatrix (haxis : ∀ value ∈ sets, value.axis = first.axis) :
    Search.checkPanelMatrix H (fullPanel H evidence target counts.effectiveNTrials first sets) =
      .ok () := by
  have hobservations : ∀ value ∈ sortOn (fun value : ObservationSet ρ => value.trialId) sets,
      value.observations.length = first.axis.length := by
    intro value hvalue
    have haxis := congrArg List.length (haxis value (mem_sortOn.1 hvalue))
    rwa [ObservationSet.axis, List.length_map] at haxis
  have hshape : ¬((fullPanel H evidence target counts.effectiveNTrials first sets).matrix.length ≠
      (fullPanel H evidence target counts.effectiveNTrials first sets).timeAxis.length ∨
      ∃ row ∈ (fullPanel H evidence target counts.effectiveNTrials first sets).matrix,
        row.length ≠
          (fullPanel H evidence target counts.effectiveNTrials first sets).trialColumns.length) := by
    rintro (hne | ⟨row, hrow, hne⟩)
    · exact hne (by simp [fullPanel, identifyPanel, panelBody])
    · refine hne ((matrix_shape hobservations row hrow).trans ?_)
      simp [fullPanel, identifyPanel, panelBody]
  have hfinite : ¬∃ row ∈ (fullPanel H evidence target counts.effectiveNTrials first sets).matrix,
      ∃ value ∈ row, ¬H.finite value := by
    rintro ⟨row, hrow, x, hx, hne⟩
    obtain ⟨t, -, rfl⟩ := List.mem_map.1 hrow
    obtain ⟨value, hvalue, observation, hobservation, rfl⟩ := mem_matrixRow hx
    have hvalid := h.valid_sets value (mem_sortOn.1 hvalue)
    exact hne (validateObservation_ok
      ((validateValidationObservationSet_ok hvalid).1 observation hobservation)).1
  rw [Search.checkPanelMatrix, if_neg hshape, if_neg hfinite]

theorem BuiltFrom.checkPanelCoverage :
    Search.checkPanelCoverage (fullPanel H evidence target counts.effectiveNTrials first sets)
      evidence (fullPanel H evidence target counts.effectiveNTrials first sets).trialColumns =
      .ok () := by
  have hlength := h.length_sets
  have hexcluded : evidence.trials.filter (fun row => row.scope ≠ target) = [] := by
    refine List.filter_eq_nil_iff.2 fun row hrow => ?_
    obtain ⟨value, -, hplaced⟩ := h.placed row hrow
    simp [hplaced.scope]
  have hentry : (fun value : ObservationSet ρ =>
      (⟨value.trialId, value.observationSetId, .evaluated⟩ : IncludedTrial)) =
        ObservationSet.entry := rfl
  simp only [Search.checkPanelCoverage, fullPanel, identifyPanel, panelBody, fullCoverage,
    hexcluded, List.zip_map', List.map_map, Function.comp_def, hentry, Prod.mk.eta]
  simp [hlength, sortOn]

theorem BuiltFrom.accepted [DecidableEq ρ] (hfree : CollisionFree H sets) :
    validateSearchTrialPanel H L panel evidence = .ok () := by
  have hrepresents := h.represents
  have hvalid := (validateSearchTrialEvidence_ok h.checked).1
  have hexpected := hrepresents.expectedTrials hvalid
  have hrebuilt : buildSearchTrialPanel H L evidence panel.observationSets false =
      .ok (.valid panel) :=
    buildSearchTrialPanel_eq_valid_iff.2 ⟨counts, target, h.perm hrepresents.reordered⟩
  obtain ⟨first, hfirst, haxis, hpanel⟩ := assemblePanel_ok h.assembled
  change panel = fullPanel H evidence target counts.effectiveNTrials first sets at hpanel
  subst hpanel
  have hgrid := (validateValidationObservationSet_ok (h.valid_sets first (mem_sortOn.1 hfirst))).2.1
  have haxis : ∀ value ∈ sets, value.axis = first.axis :=
    fun value hvalue => haxis value (mem_sortOn.2 hvalue)
  simp only [validateSearchTrialPanel, h.checked, check_eq_ok, bind_eq_ok, hexpected]
  refine ⟨by simp [fullPanel, identifyPanel, panelBody], by simp [fullPanel, identifyPanel, panelBody],
    (), h.checkPanelColumns hfree, (), h.checkPanelCounts, (), h.checkPanelMatrix haxis, (), hgrid,
    (), ?_, (), h.checkPanelCoverage, ?_, .valid _, hrebuilt, by simp, trivial⟩
  · simp [checkPanelScope, fullPanel, identifyPanel, panelBody]
  · simp [fullPanel, identifyPanel]

end
/-! ## The validator accepts nothing else -/

/-- An accepted panel is the one that is built from its own sets. -/
theorem validateSearchTrialPanel_ok [DecidableEq ρ]
    (h : validateSearchTrialPanel H L panel evidence = .ok ()) :
    buildSearchTrialPanel H L evidence panel.observationSets false = .ok (.valid panel) := by
  cases hchecked : validateSearchTrialEvidence L evidence true with
  | error e => simp [validateSearchTrialPanel, hchecked] at h
  | ok counts =>
    simp only [validateSearchTrialPanel, hchecked, check_eq_ok, bind_eq_ok] at h
    obtain ⟨-, -, _, -, _, -, _, -, _, -, _, -, _, -, -, rebuilt, hrebuilt, hsame, -⟩ := h
    rw [not_not] at hsame
    rw [hrebuilt, hsame]

/-- The sets of two panels of one family are the same, if those of one are among those of the
other. -/
theorem BuiltFrom.perm_of_subset (h : BuiltFrom H L evidence sets counts target panel)
    {sets' : List (ObservationSet ρ)} {counts' : Counts} {target' : String × String}
    {panel' : Panel ρ} (h' : BuiltFrom H L evidence sets' counts' target' panel')
    (hsubset : sets' ⊆ sets) : sets'.Perm sets := by
  have hnodup : sets'.Nodup := List.Nodup.of_map _ h'.trialIds
  refine (hnodup.subperm hsubset).perm_of_length_le ?_
  rw [h.length_sets, h'.length_sets]

/-- What keeps an accepted panel from being altered: another panel of the family has a set of its
own, with an id of its own, an observation keeps its id with all its values only, and the same holds
of the whole panel. -/
structure Unaltered (H : PanelHashes ρ) (panel panel' : Panel ρ) : Prop where
  sets : panel'.observationSets ⊆ panel.observationSets → panel' = panel
  setIds : CollisionFree H (panel.observationSets ++ panel'.observationSets) →
    panel'.observationSetIds ⊆ panel.observationSetIds → panel' = panel
  observations : ∀ value ∈ panel.observationSets, ∀ value' ∈ panel'.observationSets,
    ∀ row ∈ value.observations, ∀ row' ∈ value'.observations,
      (H.observation row'.toObservationBody = H.observation row.toObservationBody →
        row'.toObservationBody = row.toObservationBody) →
      row'.observationId = row.observationId → row' = row
  panelId : (H.panel panel'.toPanelBody = H.panel panel.toPanelBody →
      panel'.toPanelBody = panel.toPanelBody) →
    panel'.searchTrialPanelId = panel.searchTrialPanelId → panel' = panel

/-- A panel that is built from its own sets has their ids and is named by its content. -/
theorem BuiltFrom.identities (h : BuiltFrom H L evidence panel.observationSets counts target panel) :
    panel.observationSetIds = panel.observationSets.map ObservationSet.observationSetId ∧
      panel.searchTrialPanelId = "stp_" ++ H.panel panel.toPanelBody := by
  obtain ⟨first, -, -, hpanel⟩ := assemblePanel_ok h.assembled
  have hsorted : panel.observationSets =
      sortOn (fun value => value.trialId) panel.observationSets :=
    congrArg (fun panel : Panel ρ => panel.observationSets) hpanel
  have hids : panel.observationSetIds = (sortOn (fun value => value.trialId)
      panel.observationSets).map ObservationSet.observationSetId :=
    congrArg (fun panel : Panel ρ => panel.observationSetIds) hpanel
  rw [← hsorted] at hids
  refine ⟨hids, ?_⟩
  rw [hpanel]
  rfl

theorem unaltered_of_builtFrom {panel' : Panel ρ} {counts' : Counts} {target' : String × String}
    (h : BuiltFrom H L evidence panel.observationSets counts target panel)
    (h' : BuiltFrom H L evidence panel'.observationSets counts' target' panel') :
    Unaltered H panel panel' := by
  have hsets : panel'.observationSets ⊆ panel.observationSets → panel' = panel := by
    intro hsubset
    have hbuilt' : buildSearchTrialPanel H L evidence panel'.observationSets false =
        .ok (.valid panel') :=
      buildSearchTrialPanel_eq_valid_iff.2 ⟨counts', target', h'⟩
    have hbuilt : buildSearchTrialPanel H L evidence panel'.observationSets false =
        .ok (.valid panel) :=
      buildSearchTrialPanel_eq_valid_iff.2 ⟨counts, target, h.perm (h.perm_of_subset h' hsubset)⟩
    simpa using hbuilt'.symm.trans hbuilt
  refine ⟨hsets, fun hfree hids => hsets fun value' hvalue' => ?_, ?_, fun hpanel hid => ?_⟩
  · rw [h.identities.1, h'.identities.1] at hids
    obtain ⟨value, hvalue, hid⟩ := List.mem_map.1 (hids (List.mem_map_of_mem hvalue'))
    have hvalid : ∀ value ∈ panel.observationSets ++ panel'.observationSets,
        validateValidationObservationSet H value = .ok () := fun value hmem =>
      (List.mem_append.1 hmem).elim (h.valid_sets value) (h'.valid_sets value)
    have hsame := hfree.eq_of_id (List.mem_append_left _ hvalue) (List.mem_append_right _ hvalue')
      hvalid hid
    exact hsame ▸ hvalue
  · intro value hvalue value' hvalue' row hrow row' hrow' hfree hid
    have hrows := (validateValidationObservationSet_ok (h.valid_sets value hvalue)).1 row hrow
    have hrows' := (validateValidationObservationSet_ok (h'.valid_sets value' hvalue')).1 row' hrow'
    have hbody : row'.toObservationBody = row.toObservationBody := by
      refine hfree ?_
      have hsame := hid
      rw [(validateObservation_ok hrows).2, (validateObservation_ok hrows').2] at hsame
      simpa using hsame
    cases row
    cases row'
    simp_all
  · have hbody := hpanel (by
      have hsame := hid
      rw [h.identities.2, h'.identities.2] at hsame
      simpa using hsame)
    cases panel
    cases panel'
    simp_all

/-- A valid panel has exactly the executions of its family as its columns, each with its own valid
observation set, and their returns as its entries; the validator accepts it, and it accepts no panel
of this family that was altered and kept the sets, their ids or its own. -/
theorem panel_represents_family [DecidableEq ρ] (H : PanelHashes ρ) (L : Laboratory π)
    (evidence : Evidence π) :
    (∀ sets allowUnavailable panel,
      buildSearchTrialPanel H L evidence sets allowUnavailable = .ok (.valid panel) →
        Represents H L evidence sets panel ∧
          (CollisionFree H sets → validateSearchTrialPanel H L panel evidence = .ok ())) ∧
    ∀ panel, validateSearchTrialPanel H L panel evidence = .ok () →
      Represents H L evidence panel.observationSets panel ∧
        buildSearchTrialPanel H L evidence panel.observationSets false = .ok (.valid panel) ∧
        ∀ panel', validateSearchTrialPanel H L panel' evidence = .ok () →
          Unaltered H panel panel' := by
  refine ⟨fun sets allowUnavailable panel hbuilt => ?_, fun panel haccepted => ?_⟩
  · obtain ⟨counts, target, h⟩ := buildSearchTrialPanel_eq_valid_iff.1 hbuilt
    exact ⟨h.represents, h.accepted⟩
  · have hrebuilt := validateSearchTrialPanel_ok haccepted
    obtain ⟨counts, target, h⟩ := buildSearchTrialPanel_eq_valid_iff.1 hrebuilt
    refine ⟨h.represents, hrebuilt, fun panel' haccepted' => ?_⟩
    have hrebuilt' := validateSearchTrialPanel_ok haccepted'
    obtain ⟨counts', target', h'⟩ := buildSearchTrialPanel_eq_valid_iff.1 hrebuilt'
    exact unaltered_of_builtFrom h h'

end

namespace Sample

/-- Hashes that keep the trial, the period and the return. -/
def hashes : PanelHashes ℤ where
  finite _ := true
  observation body := body.trialId ++ toString body.periodTs ++ ":" ++ toString body.returnValue
  window window := toString window.firstPeriodTs ++ ":" ++ toString window.lastPeriodTs
  observationSet body :=
    body.trialId ++ String.join (body.observations.map fun row => row.observationId)
  panel body := String.join (body.observationSetIds ++ body.matrix.flatten.map toString)

def observation (trialId : String) (hour : ℕ) (returnValue : ℤ) : Observation ℤ :=
  let body : ObservationBody ℤ := {
    trialId := trialId
    periodTs := 3600000 * hour
    entryTs := 3600000 * hour
    exitTs := 3600000 * (hour + 1)
    featureStartTs := 3600000 * hour
    featureEndTs := 3600000 * hour
    returnValue := returnValue
    returnBasis := "net_pct"
    dataSnapshotId := "s"
    dataEvidenceHash := "e" }
  { body with observationId := "vobs_" ++ hashes.observation body }

/-- The set of the returns of an execution, hour by hour. -/
def observationSet (params : List ℕ) (index : ℕ) (returns : List ℤ) : ObservationSet ℤ :=
  let body : ObservationSetBody ℤ := {
    schema := observationSetSchema
    trialId := trialId params index
    symbol := "BTC"
    strategyFamily := "range_breakout"
    timeframe := "1h"
    dataSnapshotId := "s"
    dataEvidenceHash := "e"
    searchFamilyId := familyId params
    returnBasis := "net_pct"
    evaluationWindowId := "vwin_0:" ++ toString (3600000 * ((returns.length : ℤ) - 1))
    timeGrid := { kind := "fixed_step", stepMs := some 3600000 }
    observationCount := returns.length
    observations := returns.mapIdx (observation (trialId params index)) }
  { body with observationSetId := "vos_" ++ hashes.observationSet body }

def observationSets (second : List ℤ) : List (ObservationSet ℤ) :=
  [observationSet [7, 9] 0 [1, -2], observationSet [7, 9] 1 second]

/-- The panel of two executions over two hours. -/
def panel : Panel ℤ :=
  fullPanel hashes (evidence .independent [7, 9]) ("BTC", "range_breakout") 2
    (observationSet [7, 9] 0 [1, -2]) (observationSets [3, 4])

/-- The panel with one return altered, in the set and in the matrix, and all identities kept. -/
def alteredPanel : Panel ℤ :=
  { panel with
    observationSets := (observationSets [3, 5]).zipWith
      (fun altered value => { altered with observationSetId := value.observationSetId })
      panel.observationSets
    matrix := [[1, 3], [-2, 5]] }

end Sample

open Sample in
/-- The panel of an independent family of two executions over two hours; with a return altered it
is not accepted. -/
theorem panel_represents_pair :
    Represents hashes laboratory (evidence .independent [7, 9]) (observationSets [3, 4]) panel ∧
      validateSearchTrialPanel hashes laboratory panel (evidence .independent [7, 9]) = .ok () ∧
      validateSearchTrialPanel hashes laboratory alteredPanel (evidence .independent [7, 9]) ≠
        .ok () := by
  have hbuilt : buildSearchTrialPanel hashes laboratory (evidence .independent [7, 9])
      (observationSets [3, 4]) false = .ok (.valid panel) := by
    decide +kernel
  have hfree : CollisionFree hashes (observationSets [3, 4]) := by
    unfold CollisionFree
    decide +kernel
  have hmain := panel_represents_family hashes laboratory (evidence .independent [7, 9])
  have h := hmain.1 (observationSets [3, 4]) false panel hbuilt
  refine ⟨h.1, h.2 hfree, fun haltered => ?_⟩
  have hunaltered := (hmain.2 panel (h.2 hfree)).2.2 alteredPanel haltered
  have hapart : CollisionFree hashes (panel.observationSets ++ alteredPanel.observationSets) := by
    unfold CollisionFree
    decide +kernel
  have hsame : alteredPanel = panel := hunaltered.setIds hapart (List.Subset.refl _)
  exact absurd (congrArg (fun panel => panel.matrix) hsame) (by decide +kernel)

end ResearchLab.Search
