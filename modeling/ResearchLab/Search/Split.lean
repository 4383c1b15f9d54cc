import Mathlib
import ResearchLab.Search.Coverage

/-!
# Interval splits

`build_interval_split_manifest`: a forward split of an observation set by position, with the train
observations that reach into the test part purged and the first of the test part embargoed.
-/
namespace ResearchLab.Search
open Foundation

variable {ρ : Type} {H : PanelHashes ρ} {value : ObservationSet ρ}

structure Purged where
  observationId : String
  reasons : List String
  deriving DecidableEq

structure Embargoed where
  observationId : String
  reason : String
  deriving DecidableEq

structure SplitBody where
  schema : String
  observationSetId : String
  policy : String
  trainCount : ℤ
  embargoMs : ℤ
  testStartTs : ℤ
  initialTrainIds : List String
  initialTestIds : List String
  retainedTrainIds : List String
  retainedTestIds : List String
  purged : List Purged
  embargoed : List Embargoed
  effectiveTrainCount : ℕ
  effectiveTestCount : ℕ
  deriving DecidableEq

structure SplitManifest extends SplitBody where
  splitManifestId : String
  deriving DecidableEq

def splitSchema : String := "IntervalSplitManifest.v2"

/-- Why a train observation is purged. -/
def purgeReasons (testStart : ℤ) (row : Observation ρ) : List String :=
  (if testStart ≤ row.exitTs then ["holding_interval_overlaps_test"] else []) ++
    (if testStart ≤ row.featureEndTs then ["feature_horizon_overlaps_test"] else [])

/-- The loop over the train part. -/
def purgeTrain (testStart : ℤ) : List (Observation ρ) → List String × List Purged
  | [] => ([], [])
  | row :: rows =>
      let (retained, purged) := purgeTrain testStart rows
      match purgeReasons testStart row with
      | [] => (row.observationId :: retained, purged)
      | reasons => (retained, ⟨row.observationId, reasons⟩ :: purged)

/-- The loop over the test part. -/
def embargoTest (boundary : ℤ) : List (Observation ρ) → List Embargoed × List String
  | [] => ([], [])
  | row :: rows =>
      let (embargoed, retained) := embargoTest boundary rows
      if row.entryTs < boundary then (⟨row.observationId, "declared_embargo"⟩ :: embargoed, retained)
      else (embargoed, row.observationId :: retained)

/-- `build_interval_split_manifest`; `hash` is the content hash of a split. -/
def buildIntervalSplitManifest (H : PanelHashes ρ) (hash : SplitBody → String)
    (value : ObservationSet ρ) (trainCount embargoMs : ℤ) : Except String SplitManifest := do
  validateValidationObservationSet H value
  if trainCount ≤ 0 ∨ (value.observations.length : ℤ) ≤ trainCount then
    throw "invalid_train_count"
  if embargoMs < 0 then throw "invalid_embargo"
  let initialTrain := value.observations.take trainCount.toNat
  let initialTest := value.observations.drop trainCount.toNat
  let testStart := (initialTest.head?.map fun row => row.entryTs).getD 0
  let train := purgeTrain testStart initialTrain
  let test := embargoTest (testStart + embargoMs) initialTest
  if train.1 = [] then throw "empty_effective_train_partition"
  if test.2 = [] then throw "empty_effective_test_partition"
  let body : SplitBody :=
    { schema := splitSchema
      observationSetId := value.observationSetId
      policy := "forward_interval_purge_v2"
      trainCount
      embargoMs
      testStartTs := testStart
      initialTrainIds := initialTrain.map fun row => row.observationId
      initialTestIds := initialTest.map fun row => row.observationId
      retainedTrainIds := train.1
      retainedTestIds := test.2
      purged := train.2
      embargoed := test.1
      effectiveTrainCount := train.1.length
      effectiveTestCount := test.2.length }
  return { toSplitBody := body, splitManifestId := "ism_" ++ hash body }

/-! ## What the loops keep -/

/-- The train observations that end before the test part. -/
def endsBefore (testStart : ℤ) (row : Observation ρ) : Bool :=
  decide (row.exitTs < testStart ∧ row.featureEndTs < testStart)

theorem purgeReasons_eq_nil {testStart : ℤ} {row : Observation ρ} :
    purgeReasons testStart row = [] ↔ endsBefore testStart row = true := by
  rw [purgeReasons, endsBefore, List.append_eq_nil_iff, decide_eq_true_eq, ← not_le, ← not_le]
  split_ifs <;> simp_all

theorem purgeTrain_retained (testStart : ℤ) (rows : List (Observation ρ)) :
    (purgeTrain testStart rows).1 =
      (rows.filter (endsBefore testStart)).map fun row => row.observationId := by
  induction rows with
  | nil => rfl
  | cons row rows ih =>
    rw [purgeTrain]
    cases hreasons : purgeReasons testStart row with
    | nil => rw [List.filter_cons_of_pos (purgeReasons_eq_nil.1 hreasons), List.map_cons, ← ih]
    | cons reason reasons =>
      have hout : ¬ endsBefore testStart row = true := by
        rw [← purgeReasons_eq_nil, hreasons]
        exact List.cons_ne_nil _ _
      rw [List.filter_cons_of_neg hout, ← ih]

theorem purgeTrain_purged (testStart : ℤ) (rows : List (Observation ρ)) :
    (purgeTrain testStart rows).2.map Purged.observationId =
      (rows.filter fun row => !endsBefore testStart row).map fun row => row.observationId := by
  induction rows with
  | nil => rfl
  | cons row rows ih =>
    rw [purgeTrain]
    cases hreasons : purgeReasons testStart row with
    | nil =>
      have hin := purgeReasons_eq_nil.1 hreasons
      rw [List.filter_cons_of_neg (by simp [hin]), ← ih]
    | cons reason reasons =>
      have hout : ¬ endsBefore testStart row = true := by
        rw [← purgeReasons_eq_nil, hreasons]
        exact List.cons_ne_nil _ _
      rw [List.filter_cons_of_pos (by simpa using hout), List.map_cons, List.map_cons, ← ih]

theorem embargoTest_retained (boundary : ℤ) (rows : List (Observation ρ)) :
    (embargoTest boundary rows).2 =
      (rows.filter fun row => boundary ≤ row.entryTs).map fun row => row.observationId := by
  induction rows with
  | nil => rfl
  | cons row rows ih =>
    rw [embargoTest]
    split_ifs with h
    · rw [List.filter_cons_of_neg (by simpa using h), ← ih]
    · rw [List.filter_cons_of_pos (by simpa using h), List.map_cons, ← ih]

theorem embargoTest_embargoed (boundary : ℤ) (rows : List (Observation ρ)) :
    (embargoTest boundary rows).1.map Embargoed.observationId =
      (rows.filter fun row => !decide (boundary ≤ row.entryTs)).map fun row => row.observationId := by
  induction rows with
  | nil => rfl
  | cons row rows ih =>
    rw [embargoTest]
    split_ifs with h
    · rw [List.filter_cons_of_pos (by simpa using h), List.map_cons, List.map_cons, ← ih]
    · rw [List.filter_cons_of_neg (by simpa using h), ← ih]

/-! ## The split of an accepted set -/

/-- No two observations of the set share a content hash. -/
def DistinctObservations (H : PanelHashes ρ) (value : ObservationSet ρ) : Prop :=
  ∀ row ∈ value.observations, ∀ other ∈ value.observations,
    H.observation row.toObservationBody = H.observation other.toObservationBody →
      row.toObservationBody = other.toObservationBody

/-- What the validator says of the observations. -/
theorem validated_observations (h : validateValidationObservationSet H value = .ok ()) :
    (∀ row ∈ value.observations,
      row.observationId = "vobs_" ++ H.observation row.toObservationBody) ∧
    (value.observations.map fun row => row.entryTs).Pairwise (· ≤ ·) ∧
    (value.observations.map fun row => row.periodTs).Nodup := by
  have hgrid := (validateValidationObservationSet_ok h).2.1
  rw [validateValidationObservationSet, check_eq_ok] at h
  cases hobservations : value.observations with
  | nil => simp
  | cons first rest =>
    simp only [hobservations, check_eq_ok, bind_eq_ok, not_not] at h
    obtain ⟨-, -, -, _, hrows, _, -, hentry, -⟩ := h
    refine ⟨fun row hrow => ?_, hentry, ?_⟩
    · have hrow := forM_eq_ok.1 hrows row hrow
      simp only [validateObservation, check_eq_ok, not_not] at hrow
      exact hrow.2.2.2.2.2.1
    · rw [validateTimeGrid, check_eq_ok] at hgrid
      obtain ⟨-, hgrid⟩ := hgrid
      cases hstep : value.timeGrid.stepMs with
      | none => simp [hstep] at hgrid
      | some step =>
        simp only [hstep, check_eq_ok, not_not] at hgrid
        have hnodup := hgrid.2.1
        rwa [ObservationSet.axis, hobservations] at hnodup

theorem nodup_observationIds (h : validateValidationObservationSet H value = .ok ())
    (hfree : DistinctObservations H value) :
    (value.observations.map fun row => row.observationId).Nodup := by
  obtain ⟨hids, -, hperiods⟩ := validated_observations h
  refine (List.Nodup.of_map _ hperiods).map_on fun row hrow other hother heq => ?_
  rw [hids row hrow, hids other hother] at heq
  have hhash : H.observation row.toObservationBody = H.observation other.toObservationBody := by
    simpa using heq
  have hbody := hfree row hrow other hother hhash
  exact List.inj_on_of_nodup_map hperiods hrow hother
    (congrArg (fun body : ObservationBody ρ => body.periodTs) hbody)

/-- The four parts of a split. -/
def SplitBody.parts (m : SplitBody) : List (List String) :=
  [m.retainedTrainIds, m.purged.map Purged.observationId,
    m.embargoed.map Embargoed.observationId, m.retainedTestIds]

/-- Nothing leaks from the train part into the test part, and nothing is lost but for it. -/
structure ExactSplit (value : ObservationSet ρ) (trainCount embargoMs : ℤ) (m : SplitBody) :
    Prop where
  /-- Every observation is in one part, once. -/
  once : ∀ row ∈ value.observations, m.parts.flatten.count row.observationId = 1
  known : ∀ id ∈ m.parts.flatten, ∃ row ∈ value.observations, row.observationId = id
  start : (value.observations[trainCount.toNat]?).map (fun row => row.entryTs) = some m.testStartTs
  train : ∀ r ∈ value.observations, r.observationId ∈ m.retainedTrainIds →
    r.exitTs < m.testStartTs ∧ r.featureEndTs < m.testStartTs
  test : ∀ s ∈ value.observations, s.observationId ∈ m.retainedTestIds →
    m.testStartTs + embargoMs ≤ s.entryTs
  apart : ∀ r ∈ value.observations, r.observationId ∈ m.retainedTrainIds →
    ∀ s ∈ value.observations, s.observationId ∈ m.retainedTestIds →
      r.exitTs < s.entryTs ∧ r.featureEndTs < s.entryTs
  purged : ∀ r ∈ value.observations, r.observationId ∈ m.purged.map Purged.observationId →
    r.observationId ∈ m.initialTrainIds ∧
      (m.testStartTs ≤ r.exitTs ∨ m.testStartTs ≤ r.featureEndTs)
  embargoed : ∀ s ∈ value.observations, s.observationId ∈ m.embargoed.map Embargoed.observationId →
    s.observationId ∈ m.initialTestIds ∧ s.entryTs < m.testStartTs + embargoMs

/-- What a split that returns is made of. -/
theorem buildIntervalSplitManifest_ok {hash : SplitBody → String} {trainCount embargoMs : ℤ}
    {m : SplitManifest} (h : buildIntervalSplitManifest H hash value trainCount embargoMs = .ok m) :
    validateValidationObservationSet H value = .ok () ∧ 0 ≤ embargoMs ∧
      (value.observations[trainCount.toNat]?).map (fun row => row.entryTs) = some m.testStartTs ∧
      m.initialTrainIds = (value.observations.take trainCount.toNat).map (·.observationId) ∧
      m.initialTestIds = (value.observations.drop trainCount.toNat).map (·.observationId) ∧
      m.retainedTrainIds =
        (purgeTrain m.testStartTs (value.observations.take trainCount.toNat)).1 ∧
      m.purged = (purgeTrain m.testStartTs (value.observations.take trainCount.toNat)).2 ∧
      m.embargoed = (embargoTest (m.testStartTs + embargoMs)
        (value.observations.drop trainCount.toNat)).1 ∧
      m.retainedTestIds = (embargoTest (m.testStartTs + embargoMs)
        (value.observations.drop trainCount.toNat)).2 := by
  obtain ⟨_, hvalid, h⟩ := bind_eq_ok.1 h
  simp only [throw, throwThe, MonadExceptOf.throw, pure, Except.pure, bind, Except.bind] at h
  split_ifs at h with hcount hembargo htrain htest
  obtain rfl := Except.ok.inj h
  have hlt : trainCount.toNat < value.observations.length := by omega
  refine ⟨hvalid, by omega, ?_, rfl, rfl, rfl, rfl, rfl, rfl⟩
  rw [List.getElem?_eq_getElem hlt, List.head?_drop, List.getElem?_eq_getElem hlt]
  rfl

/-- An observation is found under its identity. -/
theorem mem_filter_of_observationId
    (hids : (value.observations.map fun row => row.observationId).Nodup)
    {rows : List (Observation ρ)} (hrows : ∀ r ∈ rows, r ∈ value.observations)
    {p : Observation ρ → Bool} {r : Observation ρ} (hr : r ∈ value.observations)
    (h : r.observationId ∈ (rows.filter p).map fun row => row.observationId) :
    r ∈ rows ∧ p r = true := by
  obtain ⟨r', hr', heq⟩ := List.mem_map.1 h
  have hmem := hrows r' (List.mem_filter.1 hr').1
  rw [List.inj_on_of_nodup_map hids hmem hr heq] at hr'
  exact List.mem_filter.1 hr'

/-- The two sides of a filter, under the identities. -/
theorem map_filter_perm (p : Observation ρ → Bool) (rows : List (Observation ρ)) :
    ((rows.filter p).map (fun row => row.observationId) ++
      (rows.filter fun row => !p row).map fun row => row.observationId).Perm
        (rows.map fun row => row.observationId) := by
  rw [← List.map_append]
  exact (List.filter_append_perm p rows).map _

theorem interval_split_exact {hash : SplitBody → String} {trainCount embargoMs : ℤ}
    {m : SplitManifest} (h : buildIntervalSplitManifest H hash value trainCount embargoMs = .ok m)
    (hfree : DistinctObservations H value) :
    ExactSplit value trainCount embargoMs m.toSplitBody := by
  obtain ⟨hvalid, hembargo, hstart, htrainIds, htestIds, htrain, hpurged, hembargoed, htest⟩ :=
    buildIntervalSplitManifest_ok h
  have hids := nodup_observationIds hvalid hfree
  have hentry := (validated_observations hvalid).2.1
  have htrainSub : ∀ r ∈ value.observations.take trainCount.toNat, r ∈ value.observations :=
    fun _ => List.mem_of_mem_take
  have htestSub : ∀ r ∈ value.observations.drop trainCount.toNat, r ∈ value.observations :=
    fun _ => List.mem_of_mem_drop
  have hpurgedIds := congrArg (List.map Purged.observationId) hpurged
  have hembargoedIds := congrArg (List.map Embargoed.observationId) hembargoed
  rw [purgeTrain_retained] at htrain
  rw [purgeTrain_purged] at hpurgedIds
  rw [embargoTest_embargoed] at hembargoedIds
  rw [embargoTest_retained] at htest
  -- the four parts are the observations in another order
  have hperm : m.parts.flatten.Perm (value.observations.map fun row => row.observationId) := by
    simp only [SplitBody.parts, List.flatten_cons, List.flatten_nil, List.append_nil, htrain,
      hpurgedIds, hembargoedIds, htest]
    rw [← List.append_assoc, ← List.take_append_drop trainCount.toNat value.observations,
      List.map_append, List.take_append_drop]
    exact (map_filter_perm _ _).append (List.perm_append_comm.trans (map_filter_perm _ _))
  -- the test part starts with its least entry
  have hfirst : ∀ s ∈ value.observations.drop trainCount.toNat, m.testStartTs ≤ s.entryTs := by
    intro s hs
    obtain ⟨first, hfirst, hts⟩ := Option.map_eq_some_iff.1 hstart
    obtain ⟨hlt, rfl⟩ := List.getElem?_eq_some_iff.1 hfirst
    rw [List.drop_eq_getElem_cons hlt, List.mem_cons] at hs
    rw [← hts]
    rcases hs with rfl | hs
    · exact le_rfl
    · rw [List.pairwise_map] at hentry
      have hsorted := hentry.sublist (List.drop_sublist trainCount.toNat value.observations)
      rw [List.drop_eq_getElem_cons hlt, List.pairwise_cons] at hsorted
      exact hsorted.1 s hs
  have hretained : ∀ r ∈ value.observations, r.observationId ∈ m.retainedTrainIds →
      r.exitTs < m.testStartTs ∧ r.featureEndTs < m.testStartTs := by
    intro r hr hmem
    rw [htrain] at hmem
    exact of_decide_eq_true (mem_filter_of_observationId hids htrainSub hr hmem).2
  have htested : ∀ s ∈ value.observations, s.observationId ∈ m.retainedTestIds →
      s ∈ value.observations.drop trainCount.toNat ∧ m.testStartTs + embargoMs ≤ s.entryTs := by
    intro s hs hmem
    rw [htest] at hmem
    obtain ⟨hdrop, hp⟩ := mem_filter_of_observationId hids htestSub hs hmem
    exact ⟨hdrop, of_decide_eq_true hp⟩
  refine ⟨fun row hrow => ?_, fun id hid => ?_, hstart, hretained, fun s hs hmem => (htested s hs hmem).2,
    fun r hr hrmem s hs hsmem => ?_, fun r hr hmem => ?_, fun s hs hmem => ?_⟩
  · rw [hperm.count_eq]
    exact List.count_eq_one_of_mem hids (List.mem_map_of_mem hrow)
  · exact List.mem_map.1 (hperm.mem_iff.1 hid)
  · have hr := hretained r hr hrmem
    have hs := hfirst s (htested s hs hsmem).1
    omega
  · rw [hpurgedIds] at hmem
    obtain ⟨htake, hp⟩ := mem_filter_of_observationId hids htrainSub hr hmem
    rw [htrainIds]
    refine ⟨List.mem_map_of_mem htake, ?_⟩
    by_contra hends
    have hkept : endsBefore m.testStartTs r = true := decide_eq_true (by omega)
    rw [hkept] at hp
    cases hp
  · rw [hembargoedIds] at hmem
    obtain ⟨hdrop, hp⟩ := mem_filter_of_observationId hids htestSub hs hmem
    rw [htestIds]
    exact ⟨List.mem_map_of_mem hdrop, by simpa using hp⟩

/-- Hashes that tell the periods of a small set apart. -/
def periodHashes : PanelHashes ℚ where
  finite _ := true
  observation body := if body.periodTs = 0 then "0" else if body.periodTs = 1 then "1"
    else if body.periodTs = 2 then "2" else "3"
  window _ := "w"
  observationSet _ := "s"
  panel _ := "p"

def periodRow (period entry exit : ℤ) (id : String) : Observation ℚ where
  trialId := "trial"
  periodTs := period
  entryTs := entry
  exitTs := exit
  featureStartTs := entry - 10
  featureEndTs := entry
  returnValue := 1
  returnBasis := "net"
  dataSnapshotId := "snapshot"
  dataEvidenceHash := "evidence"
  observationId := id

/-- The second holding interval reaches over the entry of the third. -/
def overlappingSet : ObservationSet ℚ where
  schema := observationSetSchema
  trialId := "trial"
  symbol := "BTC_USDT"
  strategyFamily := "breakout"
  timeframe := "1h"
  dataSnapshotId := "snapshot"
  dataEvidenceHash := "evidence"
  searchFamilyId := "family"
  returnBasis := "net"
  evaluationWindowId := "vwin_w"
  timeGrid := ⟨"fixed_step", some 1⟩
  observationCount := 4
  observations := [periodRow 0 0 5 "vobs_0", periodRow 1 10 25 "vobs_1",
    periodRow 2 20 22 "vobs_2", periodRow 3 30 35 "vobs_3"]
  observationSetId := "vos_s"

def overlappingSplit : SplitManifest where
  schema := splitSchema
  observationSetId := "vos_s"
  policy := "forward_interval_purge_v2"
  trainCount := 2
  embargoMs := 5
  testStartTs := 20
  initialTrainIds := ["vobs_0", "vobs_1"]
  initialTestIds := ["vobs_2", "vobs_3"]
  retainedTrainIds := ["vobs_0"]
  retainedTestIds := ["vobs_3"]
  purged := [⟨"vobs_1", ["holding_interval_overlaps_test"]⟩]
  embargoed := [⟨"vobs_2", "declared_embargo"⟩]
  effectiveTrainCount := 1
  effectiveTestCount := 1
  splitManifestId := "ism_h"

theorem interval_split_exact_overlapping :
    ExactSplit overlappingSet 2 5 overlappingSplit.toSplitBody := by
  have hbuild : buildIntervalSplitManifest periodHashes (fun _ => "h") overlappingSet 2 5 =
      .ok overlappingSplit := by decide +kernel
  have hfree : DistinctObservations periodHashes overlappingSet := by
    unfold DistinctObservations
    decide +kernel
  exact interval_split_exact hbuild hfree

end ResearchLab.Search
